import CampusMesh.Web.GreedyScheduling

/-!
# The peers that a scheduler refers to

A scheduler keeps three tables about peers: their bitfields, who is choked, and what was requested
from whom. It requests chunks only from peers whose bitfields it has (`Enlists`), and forgetting a
peer assigns all its requests again. So it refers to the peers only that it was told of and has not
been told to forget (`perform_acquainted`, `removePeer_acquainted`).
-/

set_option autoImplicit false
set_option relaxedAutoImplicit false

namespace CampusMesh.Web

open Library Shared SchedulerState

variable {σ : Type}

/-! ### Peers that a scheduler refers to -/

/-- The scheduler refers to known peers only. Requests are in flight only for a resource whose id
fits into a frame. -/
structure Acquainted (known : Set String) (scheduler : ChunkScheduler) : Prop where
  told : ∀ peerId, scheduler.peerBitfields.has peerId = true → peerId ∈ known
  choked : ∀ peerId, scheduler.peerChoked.has peerId = true → peerId ∈ known
  asked : ∀ chunkIndex request, scheduler.inFlight.get? chunkIndex = some request →
    request.peerId ∈ known ∧ FitsHeader scheduler.manifest.resourceId

/-- What is not about a particular peer: requests are added for peers with a bitfield only. -/
structure Enlists (first last : SchedulerState σ) : Prop where
  manifest : last.manifest = first.manifest
  peerBitfields : last.peerBitfields = first.peerBitfields
  peerChoked : last.peerChoked = first.peerChoked
  requests : ∀ chunkIndex request, last.inFlight.get? chunkIndex = some request →
    first.inFlight.get? chunkIndex = some request ∨
      first.peerBitfields.has request.peerId = true ∧ FitsHeader first.manifest.resourceId

theorem acquainted_new (known : Set String) (manifest : ResourceManifest)
    (localBitfield : Bitfield) : Acquainted known (ChunkScheduler.new manifest localBitfield) where
  told _ h := absurd h (by simp [ChunkScheduler.new])
  choked _ h := absurd h (by simp [ChunkScheduler.new])
  asked _ _ h := absurd h (by simp [ChunkScheduler.new])

theorem Acquainted.mono {known wider : Set String} {scheduler : ChunkScheduler}
    (hacquainted : Acquainted known scheduler) (hwider : known ⊆ wider) :
    Acquainted wider scheduler where
  told peerId h := hwider (hacquainted.told peerId h)
  choked peerId h := hwider (hacquainted.choked peerId h)
  asked chunkIndex request h :=
    ⟨hwider (hacquainted.asked chunkIndex request h).1, (hacquainted.asked chunkIndex request h).2⟩

instance : Std.Refl (@Enlists σ) := ⟨fun _ ↦ ⟨rfl, rfl, rfl, fun _ _ ↦ Or.inl⟩⟩

instance : IsTrans (SchedulerState σ) Enlists := by
  refine ⟨fun first second third h h' ↦ ⟨h'.manifest.trans h.manifest,
    h'.peerBitfields.trans h.peerBitfields, h'.peerChoked.trans h.peerChoked,
    fun chunkIndex request hrequest ↦ ?_⟩⟩
  rcases h'.requests chunkIndex request hrequest with hold | hnew
  · exact h.requests chunkIndex request hold
  · rw [h.peerBitfields, h.manifest] at hnew
    exact Or.inr hnew

section Scheduling

variable {env : Env} {known : Set String} {state reached : SchedulerState σ}

theorem Acquainted.enlists (hacquainted : Acquainted known state.toChunkScheduler)
    (henlists : Enlists state reached) : Acquainted known reached.toChunkScheduler where
  told peerId h := hacquainted.told peerId (henlists.peerBitfields ▸ h)
  choked peerId h := hacquainted.choked peerId (henlists.peerChoked ▸ h)
  asked chunkIndex request h := by
    rw [henlists.manifest]
    rcases henlists.requests chunkIndex request h with hold | ⟨htold, hfits⟩
    · exact hacquainted.asked chunkIndex request hold
    · exact ⟨hacquainted.told _ htold, hfits⟩

/-- Changes elsewhere. -/
theorem Enlists.of_eq (hmanifest : reached.manifest = state.manifest)
    (hbitfields : reached.peerBitfields = state.peerBitfields)
    (hchoked : reached.peerChoked = state.peerChoked)
    (hinFlight : reached.inFlight = state.inFlight) : Enlists state reached :=
  ⟨hmanifest, hbitfields, hchoked, fun _ _ hrequest ↦ Or.inl (hinFlight ▸ hrequest)⟩

theorem release_enlists (chunkIndex timer : ℕ) (state : SchedulerState σ) :
    Enlists state (release chunkIndex timer state) := by
  refine ⟨rfl, rfl, rfl, fun other request hrequest ↦ Or.inl ?_⟩
  change (state.inFlight.delete chunkIndex).get? other = some request at hrequest
  rw [OrderedMap.get?_delete] at hrequest
  split_ifs at hrequest
  exact hrequest

theorem dispatchOriginFallback_enlists (env : Env) (chunkIndex : ℕ) (state : SchedulerState σ) :
    Enlists state (dispatchOriginFallback env chunkIndex state).1 := by
  unfold dispatchOriginFallback
  split_ifs
  · exact refl_of Enlists state
  · exact .of_eq rfl rfl rfl rfl

/-- The request is made when the frame is sent, and else the retry decides. -/
theorem dispatchOrRetry_enlists {retry : Method σ} {chunkIndex : ℕ} {peerId : String}
    (retries : ℕ) (htold : state.peerBitfields.has peerId = true)
    (hretry : ∀ calls, Enlists (state.log calls) (retry (state.log calls)).1) :
    Enlists state (dispatchOrRetry env retry chunkIndex peerId retries state).1 := by
  unfold dispatchOrRetry
  split
  · exact refl_of Enlists state
  · next wireMsg hframe =>
    have hlogged : ∀ calls, Enlists state (state.log calls) := fun _ ↦ .of_eq rfl rfl rfl rfl
    have hfits : FitsHeader state.manifest.resourceId := by
      by_contra hlong
      rw [encodeRequest, SchedulerState.resourceId, encodeChunkIndex_error hlong] at hframe
      exact absurd hframe (by simp)
    simp only
    split_ifs
    · exact trans_of Enlists (hlogged _) (hretry _)
    · refine ⟨rfl, rfl, rfl, fun other request hrequest ↦ ?_⟩
      change (state.inFlight.set chunkIndex _).get? other = some request at hrequest
      rw [OrderedMap.get?_set] at hrequest
      split_ifs at hrequest
      · rw [← Option.some.inj hrequest]
        exact Or.inr ⟨htold, hfits⟩
      · exact Or.inl hrequest

/-- The peers that have a chunk have a bitfield. -/
theorem has_of_mem_eligiblePeers {chunkIndex : ℕ} {peerId : String}
    (hmem : peerId ∈ state.eligiblePeers chunkIndex) :
    state.peerBitfields.has peerId = true := by
  obtain ⟨entry, hentry, rfl⟩ := List.mem_map.mp hmem
  exact OrderedMap.has_iff_exists.mpr
    ⟨entry.2, OrderedMap.mem_entries_iff.mp (List.mem_filter.mp hentry).1⟩

theorem mem_of_byLoad {peers rest : List String} {peerId : String}
    (hselected : state.byLoad peers = peerId :: rest) : peerId ∈ peers := by
  have hmem : peerId ∈ state.byLoad peers := by
    rw [hselected]
    exact List.mem_cons_self
  exact (List.mem_insertionSort _).mp hmem

theorem scheduleWithin_enlists (env : Env) (chunkIndex attempts : ℕ) (state : SchedulerState σ) :
    Enlists state (scheduleWithin env chunkIndex attempts state).1 := by
  induction attempts generalizing state with
  | zero =>
    unfold scheduleWithin
    split_ifs
    · exact refl_of Enlists state
    · exact dispatchOriginFallback_enlists env chunkIndex state
  | succ attempts ih =>
    unfold scheduleWithin
    split_ifs
    · exact refl_of Enlists state
    split
    · next hselected =>
      exact dispatchOrRetry_enlists _ (has_of_mem_eligiblePeers (mem_of_byLoad hselected))
        fun calls ↦ ih _
    · exact dispatchOriginFallback_enlists env chunkIndex state

theorem assign_enlists {entry : RarityEntry}
    (hpeers : ∀ peerId ∈ entry.peers, state.peerBitfields.has peerId = true) :
    Enlists state (assign env entry state).1 := by
  unfold assign
  split_ifs
  · unfold assignToPeer
    split_ifs
    · exact refl_of Enlists state
    simp only
    split
    · next hselected =>
      exact dispatchOrRetry_enlists _
        (hpeers _ (List.mem_filter.mp (mem_of_byLoad hselected)).1)
        fun calls ↦ scheduleWithin_enlists env _ _ _
    · exact refl_of Enlists state
  · unfold assignToOrigin
    split_ifs
    · exact refl_of Enlists state
    · exact dispatchOriginFallback_enlists env _ state

/-- The loop requests from peers with a bitfield, and these stay the same meanwhile. -/
theorem scheduleNext_enlists (env : Env) (state : SchedulerState σ) :
    Enlists state (scheduleNext env state).1 := by
  rcases scheduleNext_cases env state with ⟨-, hidle⟩ | ⟨-, hreports⟩ |
    ⟨hrunning, hincomplete, hroom⟩
  · rw [hidle]
    exact refl_of Enlists state
  · rw [hreports]
    exact .of_eq rfl rfl rfl rfl
  · rw [scheduleNext_eq_agenda hrunning hincomplete hroom]
    have hpeers : ∀ entry ∈ agenda state, ∀ peerId ∈ entry.peers,
        state.peerBitfields.has peerId = true := by
      intro entry hentry peerId hpeer
      obtain ⟨chunkIndex, -, rfl⟩ := List.mem_map.mp (mem_agenda.mp hentry)
      exact has_of_mem_eligiblePeers hpeer
    refine Action.forEach_keeps (fun entry hentry middle hmiddle ↦ ?_) (refl_of Enlists state)
    refine trans_of Enlists hmiddle (assign_enlists fun peerId hpeer ↦ ?_)
    rw [hmiddle.peerBitfields]
    exact hpeers entry hentry peerId hpeer

theorem scheduleIfRunning_enlists (env : Env) (state : SchedulerState σ) :
    Enlists state (scheduleIfRunning env state).1 := by
  unfold scheduleIfRunning
  split_ifs
  · exact scheduleNext_enlists env state
  · exact refl_of Enlists state

theorem handleTimeout_enlists (env : Env) (chunkIndex timer : ℕ) (state : SchedulerState σ) :
    Enlists state (handleTimeout env chunkIndex timer state).1 := by
  unfold handleTimeout
  split
  · exact .of_eq rfl rfl rfl rfl
  · next request _ =>
    have hlogged : Enlists state
        ((release chunkIndex timer state).log [.onRetry chunkIndex request.peerId]) :=
      ⟨rfl, rfl, rfl, (release_enlists chunkIndex timer state).requests⟩
    exact trans_of Enlists hlogged
      (Action.andThen_rel (scheduleWithin_enlists env _ _ _) fun _ ↦ scheduleNext_enlists env _)

/-! ### What events do -/

theorem completePiece_enlists (env : Env) (chunkIndex : ℕ) (request : InFlightRequest)
    (item : ChunkReassembly) (state : SchedulerState σ) :
    Enlists state (completePiece env chunkIndex request item state).1 := by
  have hreleased := release_enlists chunkIndex request.timer state
  unfold completePiece
  simp only
  split
  · exact hreleased
  · next assembledBuffer _ =>
    refine trans_of Enlists hreleased ?_
    unfold verifyAndStoreChunk
    split
    · exact .of_eq rfl rfl rfl rfl
    · exact .of_eq rfl rfl rfl rfl

theorem handlePiece_enlists (env : Env) (chunkIndex beginOffset totalLength : ℕ) (data : Bytes)
    (state : SchedulerState σ) :
    Enlists state (handlePiece env chunkIndex beginOffset totalLength data state).1 := by
  unfold handlePiece
  split
  · exact refl_of Enlists state
  simp only
  split_ifs
  · exact completePiece_enlists env chunkIndex _ _ state
  · exact .of_eq rfl rfl rfl rfl

theorem afterVerify_enlists (digest : Bytes → Bytes) (env : Env) (chunkIndex : ℕ)
    (expected : String) (data : Bytes) (latencyMs : ℕ) (state : SchedulerState σ) :
    Enlists state (afterVerify digest env chunkIndex expected data latencyMs state).1 := by
  have hlogged : ∀ calls, Enlists state (state.log calls) := fun _ ↦ .of_eq rfl rfl rfl rfl
  unfold afterVerify
  simp only
  split_ifs
  · exact trans_of Enlists (hlogged _) (dispatchOriginFallback_enlists env chunkIndex _)
  · exact hlogged _

theorem afterPut_enlists (chunkIndex : ℕ) (fromP2P : Bool) (data : Bytes) (latencyMs : ℕ)
    (state : SchedulerState σ) :
    Enlists state (afterPut chunkIndex fromP2P data latencyMs state).1 := by
  rcases afterPut_cases chunkIndex fromP2P data latencyMs state with
    ⟨bitfield, haveMsg, -, -, heq⟩ | ⟨error, heq, -⟩ | ⟨bitfield, error, -, -, heq⟩
  · rw [heq]
    exact .of_eq rfl rfl rfl rfl
  · rw [heq]
    exact refl_of Enlists state
  · rw [heq]
    exact .of_eq rfl rfl rfl rfl

theorem Enlists.with_tasks (henlists : Enlists state reached) (tasks : List Task) :
    Enlists state { reached with tasks := tasks } :=
  ⟨henlists.manifest, henlists.peerBitfields, henlists.peerChoked, henlists.requests⟩

theorem Enlists.reject (henlists : Enlists state reached) (index : ℕ) (task : Task)
    (error : String) : Enlists state (reject index task error reached) := by
  unfold Web.reject
  split_ifs
  · exact henlists.with_tasks _
  · exact henlists.with_tasks _

theorem finish_enlists (env : Env) (index : ℕ) (task : Task) (state : SchedulerState σ) :
    Enlists state (finish env index task state) := by
  have hsettled : ∀ originInFlight, Enlists state
      { settle index state with originInFlight := originInFlight } :=
    fun _ ↦ .of_eq rfl rfl rfl rfl
  unfold finish
  simp only
  split_ifs
  · exact trans_of Enlists (hsettled state.originInFlight) (scheduleIfRunning_enlists env _)
  · exact trans_of Enlists (hsettled _) (scheduleIfRunning_enlists env _)

theorem continueTask_enlists (digest : Bytes → Bytes) (chunkStore : IChunkStore σ) (env : Env)
    (index : ℕ) (task : Task) (settlement : Settlement) (state : SchedulerState σ) :
    Enlists state (continueTask digest chunkStore env index task settlement state) := by
  have htransition := continueTask_transition digest chunkStore env index task settlement state
  generalize continueTask digest chunkStore env index task settlement state = next
    at htransition ⊢
  cases htransition with
  | ignored => exact refl_of Enlists state
  | fetched =>
    unfold verifyAndStoreChunk
    split
    · exact .of_eq rfl rfl rfl rfl
    · exact .of_eq rfl rfl rfl rfl
  | fetchFailed | written | caught => exact .of_eq rfl rfl rfl rfl
  | verified => exact (afterVerify_enlists digest env _ _ _ _ state).with_tasks _
  | verifyFailed | putFailed => exact Enlists.reject (refl_of Enlists state) _ _ _
  | putDone data latencyMs =>
    have hput := afterPut_enlists task.chunkIndex task.fromP2P data latencyMs state
    unfold afterStore
    split
    · exact hput.with_tasks _
    · exact hput.reject _ _ _
  | finished => exact finish_enlists env index task state

/-- The loop of `removePeer`: what is left of the requests of the peer is still to come. -/
theorem forEach_reassign_acquainted {peerId : String} {entries : List (ℕ × InFlightRequest)}
    (hfits : FitsHeader state.resourceId)
    (htold : ∀ other, state.peerBitfields.has other = true → other ∈ known)
    (hchoked : ∀ other, state.peerChoked.has other = true → other ∈ known)
    (hasked : ∀ chunkIndex request, state.inFlight.get? chunkIndex = some request →
      request.peerId ∈ known ∨ request.peerId = peerId ∧ (chunkIndex, request) ∈ entries) :
    Acquainted known
      (Action.forEach (reassign env peerId) entries state).1.toChunkScheduler := by
  induction entries generalizing state with
  | nil =>
    refine ⟨htold, hchoked, fun chunkIndex request hrequest ↦ ⟨?_, hfits⟩⟩
    rcases hasked chunkIndex request hrequest with hknown | ⟨-, hmem⟩
    · exact hknown
    · exact absurd hmem List.not_mem_nil
  | cons entry rest ih =>
    rw [Action.forEach, Action.andThen_of_returns (reassign_returns env peerId entry hfits).2]
    by_cases hpeer : entry.2.peerId = peerId
    · have henlists := scheduleWithin_enlists env entry.1
        (P2P_REQUEST_RETRIES + 1 - (entry.2.retries + 1)) (release entry.1 entry.2.timer state)
      have hbody : (reassign env peerId entry state).1 = (scheduleWithin env entry.1
          (P2P_REQUEST_RETRIES + 1 - (entry.2.retries + 1))
          (release entry.1 entry.2.timer state)).1 := by
        rw [reassign, if_pos hpeer]
        rfl
      rw [hbody]
      refine ih ?_ (fun other h ↦ htold other (henlists.peerBitfields ▸ h))
        (fun other h ↦ hchoked other (henlists.peerChoked ▸ h)) fun chunkIndex request h ↦ ?_
      · rw [SchedulerState.resourceId, henlists.manifest]
        exact hfits
      · rcases henlists.requests chunkIndex request h with hold | ⟨hknown, -⟩
        · change (state.inFlight.delete entry.1).get? chunkIndex = some request at hold
          rw [OrderedMap.get?_delete] at hold
          split_ifs at hold with hsame
          rcases hasked chunkIndex request hold with hknown | ⟨hrequest, hmem⟩
          · exact Or.inl hknown
          · refine Or.inr ⟨hrequest, (List.mem_cons.mp hmem).resolve_left fun heq ↦ hsame ?_⟩
            rw [← heq]
        · exact Or.inl (htold _ hknown)
    · have hbody : (reassign env peerId entry state).1 = state := by
        rw [reassign, if_neg hpeer]
      rw [hbody]
      refine ih hfits htold hchoked fun chunkIndex request h ↦ ?_
      rcases hasked chunkIndex request h with hknown | ⟨hrequest, hmem⟩
      · exact Or.inl hknown
      · refine Or.inr ⟨hrequest, (List.mem_cons.mp hmem).resolve_left fun heq ↦ hpeer ?_⟩
        rw [← heq]
        exact hrequest

/-- After `removePeer` the scheduler refers to the other peers only. -/
theorem removePeer_acquainted {left : Set String} {peerId : String}
    (hacquainted : Acquainted known state.toChunkScheduler)
    (hleft : ∀ other ∈ known, other ≠ peerId → other ∈ left) :
    Acquainted left (removePeer env peerId state).1.toChunkScheduler := by
  have hforgotten {α : Type} {map : OrderedMap String α} {other : String}
      (hmap : ∀ name, map.has name = true → name ∈ known)
      (hhas : (map.delete peerId).has other = true) : other ∈ left := by
    rw [OrderedMap.has_delete, Bool.and_eq_true, Bool.not_eq_true', decide_eq_false_iff_not] at hhas
    exact hleft other (hmap other hhas.2) hhas.1
  have hloop : Acquainted left
      (Action.forEach (reassign env peerId) state.inFlight.entries
        (forget peerId state)).1.toChunkScheduler := by
    by_cases hfits : FitsHeader state.resourceId
    · refine forEach_reassign_acquainted hfits
        (fun other h ↦ hforgotten hacquainted.told h)
        (fun other h ↦ hforgotten hacquainted.choked h) fun chunkIndex request h ↦ ?_
      by_cases hpeer : request.peerId = peerId
      · exact Or.inr ⟨hpeer, OrderedMap.mem_entries_iff.mpr h⟩
      · exact Or.inl (hleft _ (hacquainted.asked chunkIndex request h).1 hpeer)
    · -- nothing was ever requested
      have hnone : state.inFlight.entries = [] := by
        refine List.eq_nil_iff_forall_not_mem.mpr fun entry hentry ↦ hfits ?_
        exact (hacquainted.asked _ _ (OrderedMap.mem_entries_iff.mp hentry)).2
      rw [hnone]
      refine ⟨fun other h ↦ hforgotten hacquainted.told h,
        fun other h ↦ hforgotten hacquainted.choked h, fun chunkIndex request h ↦ ?_⟩
      exact absurd (hacquainted.asked chunkIndex request h).2 hfits
  rw [removePeer_eq]
  have hlast := hloop.enlists (scheduleIfRunning_enlists env _)
  exact @Action.andThen_establishes (SchedulerState σ) JsError
    (fun reached ↦ Acquainted left reached.toChunkScheduler) _ _ _ hloop hlast

/-- The event is about no unknown peer. -/
def SchedulerEvent.Concerns (known : Set String) : SchedulerEvent → Prop
  | .updatePeerBitfield peerId _ | .updatePeerHave peerId _ | .setPeerChoked peerId _ =>
    peerId ∈ known
  | _ => True

/-- A key that is set is known. -/
theorem mem_of_has_set {α : Type} {map : OrderedMap String α} {peerId : String} {value : α}
    (hpeer : peerId ∈ known) (hmap : ∀ name, map.has name = true → name ∈ known) (other : String)
    (hhas : (map.set peerId value).has other = true) : other ∈ known := by
  rw [OrderedMap.has_set, Bool.or_eq_true, decide_eq_true_eq] at hhas
  rcases hhas with rfl | hold
  · exact hpeer
  · exact hmap other hold

theorem updatePeerHave_acquainted (hacquainted : Acquainted known state.toChunkScheduler)
    {peerId : String} (hpeer : peerId ∈ known) (chunkIndex : ℕ) :
    Acquainted known (updatePeerHave env peerId chunkIndex state).1.toChunkScheduler := by
  have hlocated : Acquainted known (peerBitfield peerId state).1.toChunkScheduler := by
    unfold peerBitfield
    split
    · exact hacquainted
    · exact ⟨mem_of_has_set hpeer hacquainted.told, hacquainted.choked, hacquainted.asked⟩
  unfold updatePeerHave
  simp only
  split
  · exact hlocated
  · refine Acquainted.enlists ?_ (scheduleIfRunning_enlists env _)
    exact ⟨hlocated.told, hlocated.choked, hlocated.asked⟩

/-- Every event about known peers leaves the scheduler with known peers. -/
theorem perform_acquainted (digest : Bytes → Bytes) (chunkStore : IChunkStore σ) (env : Env)
    (hacquainted : Acquainted known state.toChunkScheduler) {event : SchedulerEvent}
    (hevent : event.Concerns known) :
    Acquainted known (perform digest chunkStore env event state).1.toChunkScheduler := by
  unfold perform
  cases event with
  | start =>
    unfold start
    simp only
    split_ifs
    · exact hacquainted
    · refine Acquainted.enlists ?_ (scheduleNext_enlists env { state with isRunning := true })
      exact ⟨hacquainted.told, hacquainted.choked, hacquainted.asked⟩
  | stop => exact ⟨hacquainted.told, hacquainted.choked, fun _ _ h ↦ absurd h (by simp [stop])⟩
  | updatePeerBitfield peerId address =>
    refine Acquainted.enlists ?_ (scheduleIfRunning_enlists env _)
    refine ⟨mem_of_has_set hevent hacquainted.told, ?_, hacquainted.asked⟩
    simp only
    split_ifs
    · exact hacquainted.choked
    · exact mem_of_has_set hevent hacquainted.choked
  | updatePeerHave peerId chunkIndex =>
    exact updatePeerHave_acquainted hacquainted hevent chunkIndex
  | setPeerChoked peerId choked =>
    have hset : Acquainted known
        ({ state with peerChoked := state.peerChoked.set peerId choked } :
          SchedulerState σ).toChunkScheduler :=
      ⟨hacquainted.told, mem_of_has_set hevent hacquainted.choked, hacquainted.asked⟩
    unfold setPeerChoked
    simp only
    split_ifs
    · exact hset
    · exact hset.enlists (scheduleIfRunning_enlists env _)
  | removePeer peerId => exact removePeer_acquainted hacquainted fun _ hmem _ ↦ hmem
  | scheduleNext => exact hacquainted.enlists (scheduleNext_enlists env state)
  | handlePiece chunkIndex beginOffset totalLength data =>
    exact hacquainted.enlists (handlePiece_enlists env _ _ _ _ state)
  | timeout timer =>
    simp only
    split
    · exact hacquainted.enlists (handleTimeout_enlists env _ timer state)
    · exact hacquainted
  | settled index settlement =>
    simp only
    split
    · exact hacquainted.enlists (continueTask_enlists digest chunkStore env index _ _ state)
    · exact hacquainted
  | shared heap => exact ⟨hacquainted.told, hacquainted.choked, hacquainted.asked⟩

end Scheduling

end CampusMesh.Web
