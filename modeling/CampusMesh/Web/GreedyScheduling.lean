import CampusMesh.Web.SchedulerProgress

/-!
# The scheduling loop is greedy

`scheduleNext` goes over an agenda, the candidates that peers have from the rarest on and then those
that nobody has. At its turn a candidate is dispatched, or all peers that have it are at their
limit, or the total is at its limit and the rest of the agenda is left alone (`agenda_cases`). Loads
and the total only grow on the way, so what was true at the turn of a candidate is true at the end,
and the order of the agenda makes the loop rarest-first and work-conserving (`scheduleNext_greedy`).
-/

set_option autoImplicit false
set_option relaxedAutoImplicit false

namespace CampusMesh.Web

open Library Shared SchedulerState

variable {σ : Type}

/-! ### The promise -/

/-- How many unchoked peers have a chunk. -/
def rarity (state : SchedulerState σ) (chunkIndex : ℕ) : ℕ :=
  (state.eligiblePeers chunkIndex).length

/-- All unchoked peers that have the chunk are at their limit. -/
def Saturated (state : SchedulerState σ) (chunkIndex : ℕ) : Prop :=
  ∀ peerId ∈ state.eligiblePeers chunkIndex,
    maxInFlightPerPeer ≤ state.countInFlightForPeer peerId

/-- What a call of `scheduleNext` leaves of the candidates: the rarest chunks first, chunks that
nobody has last, and no candidate is left while there is room for it. Nothing that was outstanding
before is changed. -/
structure Greedy (before : SchedulerState σ) (outcome : SchedulerState σ × Option JsError) :
    Prop where
  rarestFirst : ∀ chosen left, Free before chosen → Free before left →
    Acquired chosen outcome.1 → ¬ Acquired left outcome.1 →
      0 < rarity before left → rarity before left < rarity before chosen → Saturated outcome.1 left
  peersFirst : ∀ chosen left, Free before chosen → Free before left →
    Acquired chosen outcome.1 → ¬ Acquired left outcome.1 →
      rarity before chosen = 0 → 0 < rarity before left → Saturated outcome.1 left
  workConserving : outcome.2 = none → outcome.1.outstanding = maxTotalInFlight ∨
    ∀ left, Free before left → ¬ Acquired left outcome.1 →
      0 < rarity before left ∧ Saturated outcome.1 left
  bounded : outcome.1.outstanding ≤ maxTotalInFlight
  requests : ∀ chunkIndex request, before.inFlight.get? chunkIndex = some request →
    outcome.1.inFlight.get? chunkIndex = some request
  fetches : before.originInFlight ⊆ outcome.1.originInFlight

/-! ### What grows -/

section Growth

variable {env : Env} {strict : Prop} {about : Set ℕ} {state last : SchedulerState σ}
  {chunkIndex : ℕ}

/-- What scheduling only adds to. -/
structure Grows (first second : SchedulerState σ) : Prop where
  requests : ∀ chunkIndex request, first.inFlight.get? chunkIndex = some request →
    second.inFlight.get? chunkIndex = some request
  fetches : first.originInFlight ⊆ second.originInFlight
  load : ∀ peerId, first.countInFlightForPeer peerId ≤ second.countInFlightForPeer peerId

/-- A request for a chunk that has none comes behind the others. -/
theorem values_arm (hfree : state.inFlight.get? chunkIndex = none) (peerId : String)
    (retries now : ℕ) : (state.arm chunkIndex peerId retries now).inFlight.values =
      state.inFlight.values ++ [⟨chunkIndex, peerId, retries, state.nextTimer, now⟩] := by
  rw [OrderedMap.values, SchedulerState.arm,
    OrderedMap.entries_set_of_fresh (OrderedMap.has_eq_false_iff.mpr hfree), List.map_append]
  rfl

/-- It adds to the load of its peer. -/
theorem countInFlightForPeer_arm (hfree : state.inFlight.get? chunkIndex = none) (peerId : String)
    (retries now : ℕ) (other : String) :
    (state.arm chunkIndex peerId retries now).countInFlightForPeer other =
      state.countInFlightForPeer other + if peerId = other then 1 else 0 := by
  rw [countInFlightForPeer, values_arm hfree, List.countP_append, List.countP_singleton]
  simp [countInFlightForPeer]

theorem Moves.grows (hmoves : Moves env strict about state last) : Grows state last := by
  refine hmoves.keeps (Grows state) (fun moved _ first second hmove h ↦ ?_)
    ⟨fun _ _ ↦ id, fun _ ↦ id, fun _ ↦ le_rfl⟩
  cases hmove with
  | announce => exact ⟨h.1, h.2, h.3⟩
  | offer => exact ⟨h.1, h.2, h.3⟩
  | fetch => exact ⟨h.1, fun chunk hmem ↦ Finset.mem_insert_of_mem (h.2 hmem), h.3⟩
  | request peerId retries hrange hmissing hfree =>
    refine ⟨fun chunk request hrequest ↦ ?_, h.2, fun other ↦ (h.3 other).trans ?_⟩
    · have hbefore := h.1 chunk request hrequest
      have hother : chunk ≠ moved := by
        rintro rfl
        rw [hfree] at hbefore
        exact absurd hbefore (by simp)
      exact (OrderedMap.get?_set_of_ne _ hother _).trans hbefore
    · rw [countInFlightForPeer_arm hfree]
      exact Nat.le_add_right _ _

theorem Grows.acquired (hgrows : Grows state last) (hacquired : Acquired chunkIndex state) :
    Acquired chunkIndex last :=
  hacquired.imp (fun ⟨request, hrequest⟩ ↦ ⟨request, hgrows.requests _ _ hrequest⟩)
    fun hmem ↦ hgrows.fetches hmem

/-- Nothing is done about a free chunk. -/
theorem Free.not_acquired (hfree : Free state chunkIndex) : ¬ Acquired chunkIndex state := by
  rintro (⟨request, hrequest⟩ | hmem)
  · rw [hfree.notRequested] at hrequest
    exact absurd hrequest (by simp)
  · exact hfree.notFetched hmem

theorem Unmoved.eligiblePeers (hunmoved : Unmoved state last) :
    last.eligiblePeers chunkIndex = state.eligiblePeers chunkIndex := by
  unfold SchedulerState.eligiblePeers bitfieldAt
  rw [hunmoved.peerBitfields, hunmoved.peerChoked, hunmoved.heap]

end Growth

/-! ### At most one more -/

section Outstanding

variable {env : Env} {chunkIndex : ℕ}

/-- The total grows by one at most. -/
def AtMostOneMore (before after : SchedulerState σ) : Prop :=
  after.outstanding ≤ before.outstanding + 1

theorem atMostOneMore_arm (state : SchedulerState σ) (chunkIndex : ℕ) (peerId : String)
    (retries now : ℕ) : AtMostOneMore state (state.arm chunkIndex peerId retries now) := by
  have hsize : (state.arm chunkIndex peerId retries now).inFlight.size ≤
    state.inFlight.size + 1 := by
    rw [SchedulerState.arm, OrderedMap.size_set]
    split_ifs <;> omega
  unfold AtMostOneMore outstanding
  change _ + state.originInFlight.card ≤ _
  omega

theorem atMostOneMore_dispatchOriginFallback (state : SchedulerState σ) :
    AtMostOneMore state (dispatchOriginFallback env chunkIndex state).1 := by
  unfold dispatchOriginFallback
  split_ifs
  · exact Nat.le_succ _
  · have hcard := Finset.card_insert_le chunkIndex state.originInFlight
    unfold AtMostOneMore outstanding
    change state.inFlight.size + (insert chunkIndex state.originInFlight).card ≤ _
    omega

theorem atMostOneMore_dispatchOrRetry {retry : Method σ} (peerId : String) (retries : ℕ)
    {state : SchedulerState σ}
    (hretry : ∀ calls, AtMostOneMore (state.log calls) (retry (state.log calls)).1) :
    AtMostOneMore state (dispatchOrRetry env retry chunkIndex peerId retries state).1 := by
  unfold dispatchOrRetry
  split
  · exact Nat.le_succ _
  · simp only
    split_ifs
    · exact hretry _
    · exact atMostOneMore_arm (state.log _) chunkIndex peerId retries env.now

theorem atMostOneMore_scheduleWithin (attempts : ℕ) (state : SchedulerState σ) :
    AtMostOneMore state (scheduleWithin env chunkIndex attempts state).1 := by
  induction attempts generalizing state with
  | zero =>
    unfold scheduleWithin
    split_ifs
    · exact Nat.le_succ _
    · exact atMostOneMore_dispatchOriginFallback state
  | succ attempts ih =>
    unfold scheduleWithin
    split_ifs
    · exact Nat.le_succ _
    · split
      · exact atMostOneMore_dispatchOrRetry _ _ fun calls ↦ ih (state.log calls)
      · exact atMostOneMore_dispatchOriginFallback state

/-- Rescheduling a chunk acquires it once at most. -/
theorem atMostOneMore_scheduleChunk (retries : ℕ) (state : SchedulerState σ) :
    AtMostOneMore state (scheduleChunk env chunkIndex retries state).1 :=
  atMostOneMore_scheduleWithin _ state

end Outstanding

/-! ### The agenda -/

section Agenda

variable {env : Env} {state : SchedulerState σ} {entry : RarityEntry}

/-- The entry of a candidate. -/
theorem entry_of_mem_agenda (hmem : entry ∈ agenda state) :
    Free state entry.chunkIndex ∧ entry.rarity = rarity state entry.chunkIndex ∧
      entry.peers = state.eligiblePeers entry.chunkIndex := by
  have hmap := mem_agenda.mp hmem
  refine ⟨free_of_mem_rarityMap hmap, ?_⟩
  obtain ⟨chunkIndex, _, rfl⟩ := List.mem_map.mp hmap
  exact ⟨rfl, rfl⟩

/-- Every candidate is on the agenda. -/
theorem exists_mem_agenda {chunkIndex : ℕ} (hfree : Free state chunkIndex) :
    ∃ entry ∈ agenda state, entry.chunkIndex = chunkIndex :=
  ⟨_, mem_agenda.mpr (List.mem_map.mpr ⟨chunkIndex, mem_candidateIndices.mpr hfree, rfl⟩), rfl⟩

/-- The order of the agenda: what nobody has comes last, and before it the rarest first. -/
theorem pairwise_agenda (state : SchedulerState σ) :
    (agenda state).Pairwise fun first second ↦
      second.rarity = 0 ∨ 0 < first.rarity ∧ first.rarity ≤ second.rarity := by
  have hsorted : (availableFromPeers (rarityMap state)).Pairwise
      fun first second ↦ first.rarity ≤ second.rarity := by
    have htotal : Std.Total fun first second : RarityEntry ↦ first.rarity ≤ second.rarity :=
      ⟨fun first second ↦ le_total first.rarity second.rarity⟩
    have htrans : IsTrans RarityEntry fun first second ↦ first.rarity ≤ second.rarity :=
      ⟨fun _ _ _ ↦ le_trans⟩
    exact List.pairwise_insertionSort _ _
  refine List.pairwise_append.mpr ⟨?_, ?_, fun first _ second hsecond ↦
    .inl (mem_unavailableFromPeers.mp hsecond).2⟩
  · exact hsorted.imp_of_mem fun hfirst _ hle ↦ .inr ⟨(mem_availableFromPeers.mp hfirst).2, hle⟩
  · exact List.pairwise_of_forall_mem_list fun _ _ second hsecond ↦
      .inl (mem_unavailableFromPeers.mp hsecond).2

end Agenda

/-! ### One turn -/

section Turn

variable {env : Env} {state : SchedulerState σ} {entry : RarityEntry}

/-- Once the total is at its limit, nothing more is done. -/
theorem assign_idle (entry : RarityEntry) (hfull : maxTotalInFlight ≤ state.outstanding) :
    assign env entry state = (state, none) := by
  unfold assign assignToPeer assignToOrigin
  split_ifs
  · exact if_pos hfull
  · exact if_pos hfull

theorem assign_bounded (entry : RarityEntry) (hbounded : state.outstanding ≤ maxTotalInFlight) :
    (assign env entry state).1.outstanding ≤ maxTotalInFlight := by
  by_cases hfull : maxTotalInFlight ≤ state.outstanding
  · rw [assign_idle entry hfull]
    exact hbounded
  refine le_trans ?_ (Nat.succ_le_of_lt (not_le.mp hfull))
  unfold assign
  split_ifs
  · unfold assignToPeer
    rw [if_neg hfull]
    simp only
    split
    · exact atMostOneMore_dispatchOrRetry _ _ fun calls ↦ atMostOneMore_scheduleChunk _ _
    · exact Nat.le_succ _
  · unfold assignToOrigin
    rw [if_neg hfull]
    exact atMostOneMore_dispatchOriginFallback state

/-- A request with a resource id that is too long for a frame throws. -/
theorem dispatchOrRetry_throws {retry : Method σ} {chunkIndex retries : ℕ} {peerId : String}
    (hlong : ¬ FitsHeader state.resourceId) :
    (dispatchOrRetry env retry chunkIndex peerId retries state).2 ≠ none := by
  unfold dispatchOrRetry encodeRequest
  rw [encodeChunkIndex_error hlong]
  simp

/-- At its turn, when there is room, a candidate is dispatched or all of its peers are at their
limit. -/
theorem assign_returns (hfree : Free state entry.chunkIndex)
    (hroom : ¬ maxTotalInFlight ≤ state.outstanding)
    (hreturns : (assign env entry state).2 = none) :
    Acquired entry.chunkIndex (assign env entry state).1 ∨
      0 < entry.rarity ∧ ∀ peerId ∈ entry.peers,
        maxInFlightPerPeer ≤ (assign env entry state).1.countInFlightForPeer peerId := by
  unfold assign at hreturns ⊢
  split_ifs at hreturns ⊢ with hrarity
  · unfold assignToPeer at hreturns ⊢
    rw [if_neg hroom] at hreturns ⊢
    simp only at hreturns ⊢
    split at hreturns
    · next peerId _ hpeer =>
      by_cases hfits : FitsHeader state.resourceId
      · exact .inl (acquired_dispatchOrRetry hfits fun calls ↦ (scheduleChunk_progress _ _ _
          (show FitsHeader (state.log calls).resourceId from hfits)).2 hfree.missing)
      · exact absurd hreturns (dispatchOrRetry_throws hfits)
    · next hnone =>
      refine .inr ⟨hrarity, fun peerId hmem ↦ ?_⟩
      have hloaded := List.filter_eq_nil_iff.mp (byLoad_eq_nil_iff.mp hnone) peerId hmem
      exact not_lt.mp (by simpa using hloaded)
  · unfold assignToOrigin
    rw [if_neg hroom]
    exact .inl (acquired_dispatchOriginFallback hfree.missing)

end Turn

/-! ### The loop -/

section Loop

variable {env : Env} {state : SchedulerState σ}

/-- The loop never exceeds the limit of the total. -/
theorem forEach_assign_bounded {items : List RarityEntry}
    (hbounded : state.outstanding ≤ maxTotalInFlight) :
    (Action.forEach (assign env) items state).1.outstanding ≤ maxTotalInFlight := by
  have hkeeps : ∀ entry ∈ items, ∀ reached : SchedulerState σ,
      reached.outstanding ≤ maxTotalInFlight →
        (assign env entry reached).1.outstanding ≤ maxTotalInFlight :=
    fun entry _ _ ↦ assign_bounded entry
  exact Action.forEach_keeps hkeeps hbounded

/-- **The turn of a candidate, seen from the end of the loop.** It was dispatched, or all of its
peers are at their limit, or nothing was done about the rest of the agenda, which without an error
means that the total is at its limit. -/
theorem agenda_cases {earlier later : List RarityEntry} {entry : RarityEntry}
    (hagenda : agenda state = earlier ++ entry :: later) :
    Acquired entry.chunkIndex (Action.forEach (assign env) (agenda state) state).1 ∨
      (0 < entry.rarity ∧ ∀ peerId ∈ entry.peers, maxInFlightPerPeer ≤
        (Action.forEach (assign env) (agenda state) state).1.countInFlightForPeer peerId) ∨
      (∀ other ∈ later, Free (Action.forEach (assign env) (agenda state) state).1
        other.chunkIndex) ∧ ((Action.forEach (assign env) (agenda state) state).2 = none →
          maxTotalInFlight ≤ (Action.forEach (assign env) (agenda state) state).1.outstanding) := by
  have hnodup := nodup_agenda state
  have hstart : ∀ other ∈ agenda state, Free state other.chunkIndex :=
    fun other hmem ↦ (entry_of_mem_agenda hmem).1
  rw [hagenda] at hnodup hstart ⊢
  rw [List.map_append, List.map_cons, List.nodup_append, List.nodup_cons] at hnodup
  obtain ⟨hearlier, ⟨hentry, hlater⟩, hapart⟩ := hnodup
  -- The candidates from this one on are free when its turn comes.
  have hmoves := @forEach_assign_moves σ env earlier hearlier state fun other hmem ↦
    hstart other (List.mem_append_left _ hmem)
  have hfree : ∀ other ∈ entry :: later,
      Free (Action.forEach (assign env) earlier state).1 other.chunkIndex := by
    intro other hmem
    refine hmoves.free (fun hin ↦ ?_) (hstart other (List.mem_append_right _ hmem))
    exact hapart _ hin _ (List.mem_map_of_mem hmem) rfl
  rw [Action.forEach_append]
  cases hfirst : (Action.forEach (assign env) earlier state).2 with
  | some error =>
    rw [Action.andThen_of_throws hfirst]
    exact .inr (.inr ⟨fun other hmem ↦ hfree other (List.mem_cons_of_mem entry hmem),
      fun hnone ↦ absurd hnone (by simp)⟩)
  | none =>
    rw [Action.andThen_of_returns hfirst]
    revert hfree
    generalize (Action.forEach (assign env) earlier state).1 = reached
    intro hfree
    by_cases hfull : maxTotalInFlight ≤ reached.outstanding
    · rw [Action.forEach_idle fun other _ ↦ assign_idle other hfull]
      exact .inr (.inr ⟨fun other hmem ↦ hfree other (List.mem_cons_of_mem entry hmem),
        fun _ ↦ hfull⟩)
    have hown : Moves env True {entry.chunkIndex} reached (assign env entry reached).1 :=
      assign_moves env (hfree entry List.mem_cons_self)
    have hrest : ∀ other ∈ later, Free (assign env entry reached).1 other.chunkIndex := by
      intro other hmem
      refine hown.free (fun hsame ↦ hentry ?_) (hfree other (List.mem_cons_of_mem entry hmem))
      rw [← Set.mem_singleton_iff.mp hsame]
      exact List.mem_map_of_mem hmem
    rw [Action.forEach]
    cases hturn : (assign env entry reached).2 with
    | some error =>
      rw [Action.andThen_of_throws hturn]
      exact .inr (.inr ⟨hrest, fun hnone ↦ absurd hnone (by simp)⟩)
    | none =>
      rw [Action.andThen_of_returns hturn]
      have hgrows := (@forEach_assign_moves σ env later hlater _ hrest).grows
      rcases assign_returns (hfree entry List.mem_cons_self) hfull hturn with
        hacquired | ⟨hpositive, hsaturated⟩
      · exact .inl (hgrows.acquired hacquired)
      · exact .inr (.inl ⟨hpositive, fun peerId hmem ↦
          (hsaturated peerId hmem).trans (hgrows.load peerId)⟩)

/-- A candidate that comes behind one that is left over is not dispatched, unless all peers of the
one that is left over are at their limit. -/
theorem saturated_of_later {chosen left : ℕ} (hchosen : Free state chosen) (hleft : Free state left)
    (hacquired : Acquired chosen (Action.forEach (assign env) (agenda state) state).1)
    (hmissed : ¬ Acquired left (Action.forEach (assign env) (agenda state) state).1)
    (horder : 0 < rarity state left ∧
      (rarity state chosen = 0 ∨ rarity state left < rarity state chosen)) :
    Saturated (Action.forEach (assign env) (agenda state) state).1 left := by
  obtain ⟨entry, hentry, rfl⟩ := exists_mem_agenda hleft
  obtain ⟨other, hother, rfl⟩ := exists_mem_agenda hchosen
  obtain ⟨-, hrarity, hpeers⟩ := entry_of_mem_agenda hentry
  obtain ⟨-, hotherRarity, -⟩ := entry_of_mem_agenda hother
  rw [← hrarity, ← hotherRarity] at horder
  obtain ⟨earlier, later, hagenda⟩ := List.append_of_mem hentry
  have hunmoved := (@forEach_assign_moves σ env _ (nodup_agenda state) state fun other hmem ↦
    (entry_of_mem_agenda hmem).1).unmoved
  rcases @agenda_cases σ env state _ _ _ hagenda with hdone | ⟨-, hsaturated⟩ | ⟨hrest, -⟩
  · exact absurd hdone hmissed
  · intro peerId hmem
    rw [hunmoved.eligiblePeers, ← hpeers] at hmem
    exact hsaturated peerId hmem
  · -- The chosen one is neither before nor at the place of the one that is left over.
    have hpairwise := pairwise_agenda state
    rw [hagenda] at hpairwise hother
    rcases List.mem_append.mp hother with hbefore | hafter
    · rcases (List.pairwise_append.mp hpairwise).2.2 other hbefore entry List.mem_cons_self with
        hzero | ⟨hpositive, hle⟩
      · omega
      · omega
    · rcases List.mem_cons.mp hafter with rfl | hafter
      · exact absurd hacquired hmissed
      · exact absurd hacquired (hrest other hafter).not_acquired

end Loop

/-- **The scheduling loop is rarest-first and work-conserving.** In every state of a running
scheduler with an incomplete download and room for more, whatever the data channels answer. It
returns whenever the id of the resource fits into a frame. -/
theorem scheduleNext_greedy (env : Env) {state : SchedulerState σ}
    (hrunning : state.isRunning = true) (hincomplete : state.localBitfield.isComplete = false)
    (hroom : state.outstanding < maxTotalInFlight) :
    Greedy state (scheduleNext env state) ∧
      (FitsHeader state.resourceId → (scheduleNext env state).2 = none) := by
  refine ⟨?_, fun hfits ↦ (scheduleNext_progress hfits).1⟩
  have hgrows := (scheduleNext_moves env state).grows
  have hbounded : (scheduleNext env state).1.outstanding ≤ maxTotalInFlight := by
    rw [scheduleNext_eq_agenda hrunning hincomplete hroom]
    exact forEach_assign_bounded hroom.le
  refine ⟨?_, ?_, ?_, hbounded, hgrows.requests, hgrows.fetches⟩
  · intro chosen left hchosen hleft
    rw [scheduleNext_eq_agenda hrunning hincomplete hroom]
    exact fun hacquired hmissed hpositive hrarer ↦
      saturated_of_later hchosen hleft hacquired hmissed ⟨hpositive, .inr hrarer⟩
  · intro chosen left hchosen hleft
    rw [scheduleNext_eq_agenda hrunning hincomplete hroom]
    exact fun hacquired hmissed hzero hpositive ↦
      saturated_of_later hchosen hleft hacquired hmissed ⟨hpositive, .inl hzero⟩
  · intro hreturns
    by_cases hfull : (scheduleNext env state).1.outstanding = maxTotalInFlight
    · exact .inl hfull
    refine .inr fun left hleft hmissed ↦ ?_
    have hunmoved := (scheduleNext_moves env state).unmoved
    obtain ⟨entry, hentry, rfl⟩ := exists_mem_agenda hleft
    obtain ⟨-, hrarity, hpeers⟩ := entry_of_mem_agenda hentry
    obtain ⟨earlier, later, hagenda⟩ := List.append_of_mem hentry
    have hcases := @agenda_cases σ env state _ _ _ hagenda
    rw [← scheduleNext_eq_agenda hrunning hincomplete hroom] at hcases
    rcases hcases with hdone | ⟨hpositive, hsaturated⟩ | ⟨-, hstopped⟩
    · exact absurd hdone hmissed
    · refine ⟨hrarity ▸ hpositive, fun peerId hmem ↦ ?_⟩
      rw [hunmoved.eligiblePeers, ← hpeers] at hmem
      exact hsaturated peerId hmem
    · exact absurd (le_antisymm hbounded (hstopped hreturns)) hfull

/-- A scheduler of eight chunks that is about to start. The first chunk is stored, the last one is
with nobody, and the others are with one, two or three peers. -/
def readyToStart : SchedulerState MemoryStorage :=
  { schedulerRun id MemoryChunkStore eightChunkManifest ⟨8, [0x80], by decide⟩
      [⟨8, [0xfe], rfl⟩, ⟨8, [0xf0], rfl⟩, ⟨8, [0xc0], rfl⟩] OrderedMap.empty
      [(calmEnv, .updatePeerBitfield "first" 0), (calmEnv, .updatePeerBitfield "second" 1),
        (calmEnv, .updatePeerBitfield "third" 2)] with isRunning := true }

/-- The chunks of one peer come before those of two and three, and the one of nobody is fetched. The
chunk with index 6 is left over: its one peer has as many requests as it may have. -/
theorem scheduleNext_greedy_readyToStart :
    (Greedy readyToStart (scheduleNext calmEnv readyToStart) ∧
      (FitsHeader readyToStart.resourceId → (scheduleNext calmEnv readyToStart).2 = none)) ∧
    (scheduleNext calmEnv readyToStart).1.inFlight.entries.map
        (fun entry ↦ (entry.1, entry.2.peerId)) =
      [(4, "first"), (5, "first"), (2, "second"), (3, "second"), (1, "third")] ∧
    (scheduleNext calmEnv readyToStart).1.originInFlight = {7} :=
  ⟨scheduleNext_greedy calmEnv rfl (by decide +kernel) (by decide +kernel), by decide +kernel,
    by decide +kernel⟩

end CampusMesh.Web
