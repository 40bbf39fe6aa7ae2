import Perfacet.Pipeline.Simulation.Steps

/-!
# What the in-flight table says

The entry of a running call repeats whose call it is, what it calls and which task it has. A
call whose backend is not there never gets a task.

## Main results

* `PipelineState.entered_of_run` — every entry agrees with a live call
-/

namespace Perfacet

variable {env : Env} {P : Promise} {hand : Hand} {k k' : Core} {c : ℕ} {call call' : Call}
  {id : String} {e : InFlightEntry} {s : PipelineState}

/-- An entry agrees with a call. -/
structure InFlightEntry.Tells (e : InFlightEntry) (id : String) (call : Call) : Prop where
  inflightId : call.inflightId = id
  entryId : e.inflightId = id
  agentId : e.agentId = call.req.who.agentId
  key : e.key = call.key
  paramsHash : e.paramsHash = call.paramsHash
  taskId : e.taskId.getD "" = call.taskId

theorem InFlightEntry.Tells.same (tells : e.Tells id call) (same : call.Same call') :
    e.Tells id call' where
  inflightId := same.inflightId.trans tells.inflightId
  entryId := tells.entryId
  agentId := by rw [same.req]; exact tells.agentId
  key := by rw [same.key]; exact tells.key
  paramsHash := by rw [same.paramsHash]; exact tells.paramsHash
  taskId := by rw [same.taskId]; exact tells.taskId

namespace Core

/-- Every entry agrees with a live call. -/
def Entered (k : Core) : Prop := ∀ id e, k.inflight.byId.lookup id = some e →
  ∃ c call, k.calls.lookup c = some call ∧ e.Tells id call

namespace Entered

theorem initial : (Core.initial env.cfg).Entered := fun id e stored => by
  simp [Core.initial, AList.lookup_empty] at stored

/-- A call changes, but nothing that its entry says. -/
theorem update (h : k.Entered) (stored : k.calls.lookup c = some call) (same : call.Same call') :
    Entered { k with calls := k.calls.insert c call' } := by
  intro id e found
  obtain ⟨c', call'', there, tells⟩ := h id e found
  by_cases this : c' = c
  · subst this
    obtain rfl := Option.some.inj (stored.symm.trans there)
    exact ⟨c', call', AList.lookup_insert _, tells.same same⟩
  · exact ⟨c', call'', (AList.lookup_insert_ne this).trans there, tells⟩

/-- A call starts and is entered. -/
theorem launch (h : k.Entered) (ok : k.Ok env) {w : Waiting} (holds : k.hand = .waiting w)
    (iid summary : String) (now t0 : UInt64) (like : (PipelineState.newCall w iid t0).Same call) :
    Entered { k with
      inflight := k.inflight.insert iid w.req.who.agentId w.key w.hash summary now
      calls := k.calls.insert k.nextCall call } := by
  intro id e found
  simp only [InFlight.insert, UnorderedMap.lookup_insert] at found
  split at found
  · next same =>
    subst same
    rw [← Option.some.inj found]
    have parsed := (ok.orderly.queued.hand holds).parsed
    refine ⟨k.nextCall, call, AList.lookup_insert _, like.inflightId, rfl, ?_, ?_, ?_, ?_⟩
    · rw [like.req]
      rfl
    · rw [like.key]
      simp [PipelineState.newCall, parsed]
    · rw [like.paramsHash]
      rfl
    · rw [like.taskId]
      rfl
  · obtain ⟨c', call', there, tells⟩ := h id e found
    have older : c' ≠ k.nextCall := by
      rintro rfl
      rw [ok.orderly.numbered.new] at there
      cases there
    exact ⟨c', call', (AList.lookup_insert_ne older).trans there, tells⟩

/-- A call gets its task, and its entry the same. -/
theorem attach (h : k.Entered) (ok : k.Ok env) (stored : k.calls.lookup c = some call)
    (taskId : String) :
    Entered { k with
      inflight := k.inflight.setTaskId call.inflightId taskId
      calls := k.calls.insert c { call with taskId := taskId } } := by
  intro id e found
  have entry : (k.inflight.byId.lookup id = some e ∧ id ≠ call.inflightId) ∨
      ∃ old, k.inflight.byId.lookup id = some old ∧ id = call.inflightId ∧
        e = { old with taskId := some taskId } := by
    dsimp only [InFlight.setTaskId] at found
    cases own : k.inflight.byId.lookup call.inflightId with
    | none =>
      rw [own] at found
      refine .inl ⟨found, ?_⟩
      rintro rfl
      rw [own] at found
      cases found
    | some old =>
      rw [own] at found
      simp only [UnorderedMap.lookup_insert] at found
      split at found
      · next same => exact .inr ⟨old, same ▸ own, same, (Option.some.inj found).symm⟩
      · next other => exact .inl ⟨found, other⟩
  clear found
  rcases entry with ⟨found, other⟩ | ⟨old, found, rfl, rfl⟩
  · obtain ⟨c', call', there, tells⟩ := h id e found
    have apart : c' ≠ c := by
      rintro rfl
      obtain rfl := Option.some.inj (stored.symm.trans there)
      exact other tells.inflightId.symm
    exact ⟨c', call', (AList.lookup_insert_ne apart).trans there, tells⟩
  · obtain ⟨c', call', there, tells⟩ := h _ old found
    obtain rfl := ok.tables.eq_of_inflightId there stored tells.inflightId
    obtain rfl := Option.some.inj (stored.symm.trans there)
    exact ⟨c', _, AList.lookup_insert _, { tells with taskId := rfl }⟩

/-- A call is destroyed, and its entry erased. -/
theorem destroy (h : k.Entered) (stored : k.calls.lookup c = some call) :
    Entered { k with
      inflight := k.inflight.erase call.inflightId
      calls := k.calls.erase c } := by
  intro id e found
  have entry : k.inflight.byId.lookup id = some e ∧ id ≠ call.inflightId := by
    dsimp only [InFlight.erase] at found
    cases own : k.inflight.byId.lookup call.inflightId with
    | none =>
      rw [own] at found
      refine ⟨found, ?_⟩
      rintro rfl
      rw [own] at found
      cases found
    | some old =>
      rw [own] at found
      simp only [UnorderedMap.lookup_erase] at found
      split at found
      · cases found
      · next other => exact ⟨found, other⟩
  obtain ⟨found, other⟩ := entry
  obtain ⟨c', call', there, tells⟩ := h id e found
  have apart : c' ≠ c := by
    rintro rfl
    obtain rfl := Option.some.inj (stored.symm.trans there)
    exact other tells.inflightId.symm
  exact ⟨c', call', (AList.lookup_erase_ne apart).trans there, tells⟩

theorem move (m : k.Move env P k') (ok : k.Ok env) (h : k.Entered) : k'.Entered := by
  cases m with
  | launch w summary now t0 delay upTrace call holds built =>
    subst built
    exact h.launch ok holds _ summary now t0 ⟨rfl, rfl, rfl, rfl, rfl, rfl, rfl, rfl⟩
  | launchAbsent w summary now t0 r call holds built =>
    subst built
    exact h.launch ok holds _ summary now t0 ⟨rfl, rfl, rfl, rfl, rfl, rfl, rfl, rfl⟩
  | act c call call' events frames stored act => exact h.update stored act.same
  | attach c call taskId stored => exact h.attach ok stored taskId
  | mark id taskId dead =>
    -- The id belongs to no live call, so it has no entry.
    have absent : k.inflight.byId.lookup id = none := by
      by_contra held
      obtain ⟨c, live⟩ := ok.tables.held.mp (Option.ne_none_iff_isSome.mp held)
      obtain ⟨call, stored, -⟩ := ok.tables.alive.mp live
      rw [dead c live] at stored
      cases stored
    have same : k.inflight.setTaskId id taskId = k.inflight := by
      rw [InFlight.setTaskId, absent]
    rw [same]
    exact h
  | destroy c call below top stored => exact h.destroy stored
  | _ => exact h

end Entered

/-- A call whose backend is not there has no task. -/
def Untasked (env : Env) (k : Core) : Prop := ∀ c call, k.calls.lookup c = some call →
  env.catalog.backend call.key.backend = false → call.taskId = ""

namespace Untasked

theorem update (h : k.Untasked env)
    (this : env.catalog.backend call.key.backend = false → call.taskId = "") :
    Untasked env { k with calls := k.calls.insert c call } := by
  intro c' call' stored
  rw [UnorderedMap.lookup_insert] at stored
  split at stored
  · rw [← Option.some.inj stored]
    exact this
  · exact h c' call' stored

theorem move (m : k.Move env P k') (h : k.Untasked env) : k'.Untasked env := by
  cases m with
  | launch w summary now t0 delay upTrace call holds built =>
    subst built
    exact h.update fun _ => rfl
  | launchAbsent w summary now t0 r call holds built =>
    subst built
    exact h.update fun _ => rfl
  | act c call call' events frames stored act =>
    exact h.update fun absent => act.same.taskId.trans (h c call stored (act.same.key ▸ absent))
  | attach c call taskId stored without drawn present =>
    refine h.update fun absent => ?_
    have absent : env.catalog.backend call.key.backend = false := absent
    rw [present] at absent
    cases absent
  | destroy c call below top stored =>
    intro c' call' there
    change (k.calls.erase c).lookup c' = some call' at there
    rw [UnorderedMap.lookup_erase] at there
    split at there
    · cases there
    · exact h c' call' there
  | _ => exact h

end Untasked

end Core

namespace PipelineState

variable {h : List (TransitionSystem.Step PipelineState PipelineInput)}

theorem entered_of_run (run : (Pipeline.machine env).Run h s) : (s.core .empty).Entered :=
  core_of_any_run run .initial fun _ _ ok m entered => entered.move m ok

theorem untasked_of_run (run : (Pipeline.machine env).Run h s) : (s.core .empty).Untasked env :=
  core_of_any_run run (fun c call stored => by simp [Core.initial, AList.lookup_empty] at stored)
    fun _ _ _ m untasked => untasked.move m

end PipelineState

end Perfacet
