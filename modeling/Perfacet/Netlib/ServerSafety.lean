import Perfacet.Netlib.TcpServer

/-!
# No connection is used after it has been destroyed

An open connection is in the table of the server and in epoll, under its own descriptor. As long
as its entry is in the table it is not destroyed, so its descriptor is not given to another one.
The entry of a connection that is closed is erased by a task, which runs when no active channel is
left. Hence the channels that are still to be handled have not been destroyed.

What `flushAll` calls is not kept by anybody: a connection that is closed may be gone when it is
flushed, or while it is, if a thread has given up its last owner since the test. That is the only
way in which a connection is used after it has been destroyed.

## Main definitions

* `TcpServer.Safe` — the descriptors, the table and epoll fit the connections
* `TcpServer.Sound` — the invariant

## Main results

* `TcpServer.safe_of_run` — in every run, the entries fit the connections, and one that has been
  destroyed is used if and only if `flushAll` uses one that was given up after its test
* `TcpServer.fault_of_keeps` — no connection is used after it has been destroyed if threads do not
  give up the last owner of one that `flushAll` is about to use
* `TcpServer.reclaimed_of_run` — connections that are closed are destroyed
-/

namespace Perfacet

namespace TcpServer

variable {s s' : TcpServer} {c c' fd : ℕ} {x x' : ServerConn} {f : TcpConnection → TcpConnection}
  {i : ServerInput}

/-- No two connections have one descriptor; an entry of the table, or of epoll, is one of a
connection with that descriptor, which is open in the case of epoll. A connection that is open has
both entries, and `closeCb` is called once, when it closes. -/
structure Safe (s : TcpServer) : Prop where
  fds : ∀ c c' x x', s.heap c = some x → s.heap c' = some x' → x.fd = x'.fd → c = c'
  conns : ∀ fd c, s.conns.lookup fd = some c → ∃ x, s.heap c = some x ∧ x.fd = fd
  epoll : ∀ fd c, s.epoll fd = some c →
    ∃ x, s.heap c = some x ∧ x.fd = fd ∧ x.conn.state ≠ .disconnected
  opened : ∀ c x, s.heap c = some x → x.conn.state ≠ .disconnected →
    s.epoll x.fd = some c ∧ s.conns.lookup x.fd = some c ∧ x.inEpoll = true ∧ x.closes = 0
  closed : ∀ c x, s.heap c = some x → x.conn.state = .disconnected →
    x.inEpoll = false ∧ x.closes = 1

/-- The connections whose channels are still to be handled. -/
def active (s : TcpServer) : List ℕ :=
  match s.phase with
  | .dispatching active _ => active.filterMap (·.map Prod.fst)
  | _ => []

/-- Besides, owners have not been destroyed, a channel that is to be handled is one of a connection
in the table, and it is the entries of closed connections that are about to be erased. -/
structure Sound (s : TcpServer) : Prop extends Safe s where
  fresh : ∀ c, s.count ≤ c → s.heap c = none
  owners : ∀ c ∈ s.owners, ∃ x, s.heap c = some x
  active : ∀ c ∈ s.active, ∃ x, s.heap c = some x ∧ s.conns.lookup x.fd = some c
  erased : ∀ c x, s.heap c = some x → x.conn.state = .disconnected →
    s.conns.lookup x.fd = some c → .removeConnection c ∈ s.tasks
  removing : ∀ c x, .removeConnection c ∈ s.tasks → s.heap c = some x →
    x.conn.state = .disconnected

/-! ## Owners -/

theorem mem_owners : c ∈ s.owners ↔ (∃ fd, s.conns.lookup fd = some c) ∨
    c ∈ s.pending.map ServerTask.conn ∨ c ∈ s.held ∨ c ∈ phaseOwners s.phase := by
  simp only [TcpServer.owners, List.mem_append, or_assoc]
  refine or_congr ⟨?_, ?_⟩ Iff.rfl
  · intro member
    obtain ⟨⟨fd, c'⟩, entry, rfl⟩ := List.mem_map.mp member
    exact ⟨fd, UnorderedMap.mem_entries_iff.mp entry⟩
  · rintro ⟨fd, found⟩
    exact List.mem_map.mpr ⟨⟨fd, c⟩, UnorderedMap.mem_entries_iff.mpr found, rfl⟩

theorem mem_owners_of_lookup (found : s.conns.lookup fd = some c) : c ∈ s.owners :=
  mem_owners.mpr (.inl ⟨fd, found⟩)

theorem mem_owners_of_mem_tasks (task : .removeConnection c ∈ s.tasks) : c ∈ s.owners := by
  rw [mem_owners]
  rw [tasks] at task
  split at task
  · next left ran phase =>
    rcases List.mem_append.mp task with now | later
    · rw [phase]
      exact .inr (.inr (.inr (List.mem_map.mpr ⟨_, List.mem_append_left _ now, rfl⟩)))
    · exact .inr (.inl (List.mem_map.mpr ⟨_, later, rfl⟩))
  · exact .inr (.inl (List.mem_map.mpr ⟨_, task, rfl⟩))

/-- A descriptor that is going to be closed is that of a connection without owners. -/
theorem closing_iff (sound : Sound s) : s.closing fd = true ↔
    ∃ c x, c ∉ s.owners ∧ s.heap c = some x ∧ x.fd = fd := by
  simp only [closing, List.any_eq_true, List.mem_range, Bool.and_eq_true, Bool.not_eq_true',
    Option.any_eq_true, decide_eq_true_eq]
  constructor
  · rintro ⟨c, -, unowned, x, here, same⟩
    refine ⟨c, x, fun member => ?_, here, same⟩
    rw [List.contains_iff_mem.mpr member] at unowned
    cases unowned
  · rintro ⟨c, x, unowned, here, same⟩
    refine ⟨c, ?_, ?_, x, here, same⟩
    · by_contra beyond
      rw [sound.fresh c (Nat.le_of_not_lt beyond)] at here
      cases here
    · exact Bool.eq_false_iff.mpr fun member => unowned (List.contains_iff_mem.mp member)

theorem heap_collect (s : TcpServer) (c : ℕ) :
    s.collect.heap c = if c ∈ s.owners then s.heap c else none := rfl

theorem heap_of_collect (here : s.collect.heap c = some x) : c ∈ s.owners ∧ s.heap c = some x :=
  Option.ite_none_right_eq_some.mp here

/-- An entry of epoll stays if its connection does. -/
theorem epoll_collect (sound : Sound s) (here : s.heap c = some x) (owned : c ∈ s.owners) :
    s.collect.epoll x.fd = s.epoll x.fd := by
  refine if_neg fun closing => ?_
  obtain ⟨c', x', unowned, here', same⟩ := (closing_iff sound).mp closing
  rw [sound.fds c' c x' x here' here same] at unowned
  exact unowned owned

/-- To destroy the connections without owners keeps the invariant. -/
theorem Sound.collect (sound : Sound s) : Sound s.collect := by
  have kept {c : ℕ} (owned : c ∈ s.owners) : s.collect.heap c = s.heap c := if_pos owned
  refine ⟨⟨?_, ?_, ?_, ?_, ?_⟩, ?_, ?_, ?_, ?_, ?_⟩
  · intro c c' x x' here here'
    exact sound.fds c c' x x' (heap_of_collect here).2 (heap_of_collect here').2
  · intro fd c found
    rw [kept (mem_owners_of_lookup found)]
    exact sound.conns fd c found
  · intro fd c found
    obtain ⟨stays, found⟩ := Option.ite_none_left_eq_some.mp found
    obtain ⟨x, here, rfl, isOpen⟩ := sound.epoll fd c found
    have owned : c ∈ s.owners := by
      by_contra unowned
      exact stays ((closing_iff sound).mpr ⟨c, x, unowned, here, rfl⟩)
    exact ⟨x, (kept owned).trans here, rfl, isOpen⟩
  · intro c x here isOpen
    obtain ⟨owned, here⟩ := heap_of_collect here
    rw [epoll_collect sound here owned]
    exact sound.opened c x here isOpen
  · intro c x here closed
    exact sound.closed c x (heap_of_collect here).2 closed
  · intro c beyond
    rw [heap_collect, sound.fresh c beyond]
    exact ite_self _
  · intro c owned
    rw [kept owned]
    exact sound.owners c owned
  · intro c member
    obtain ⟨x, here, found⟩ := sound.active c member
    exact ⟨x, (kept (mem_owners_of_lookup found)).trans here, found⟩
  · intro c x here closed found
    exact sound.erased c x (heap_of_collect here).2 closed found
  · intro c x task here
    exact sound.removing c x task (heap_of_collect here).2

/-- Afterwards every connection has an owner. -/
theorem mem_owners_of_collect (here : s.collect.heap c = some x) : c ∈ s.collect.owners :=
  (heap_of_collect here).1

/-! ## Member functions -/

theorem heap_put (s : TcpServer) (c c' : ℕ) (x : ServerConn) :
    (s.put c x).heap c' = if c' = c then some x else s.heap c' := Function.update_apply ..

/-- The entry of a channel that is in epoll is only modified. -/
theorem updateChannel_of_inEpoll (here : s.heap c = some x) (inEpoll : x.inEpoll = true) :
    s.updateChannel c = s := by
  rw [updateChannel, here]
  exact if_pos inEpoll

/-- A connection changes, and neither closes nor opens. -/
theorem Sound.put (sound : Sound s) (here : s.heap c = some x) (fd : x'.fd = x.fd)
    (inEpoll : x'.inEpoll = x.inEpoll) (closes : x'.closes = x.closes)
    (state : x'.conn.state = .disconnected ↔ x.conn.state = .disconnected) :
    Sound (s.put c x') := by
  have before {c₁ : ℕ} {x₁ : ServerConn} (there : (s.put c x').heap c₁ = some x₁) :
      ∃ x₀, s.heap c₁ = some x₀ ∧ x₁.fd = x₀.fd ∧ x₁.inEpoll = x₀.inEpoll ∧
        x₁.closes = x₀.closes ∧
        (x₁.conn.state = .disconnected ↔ x₀.conn.state = .disconnected) := by
    rw [heap_put] at there
    split at there
    · next same =>
      obtain rfl := Option.some.inj there
      exact ⟨x, same ▸ here, fd, inEpoll, closes, state⟩
    · exact ⟨x₁, there, rfl, rfl, rfl, Iff.rfl⟩
  have after {c₀ : ℕ} {x₀ : ServerConn} (there : s.heap c₀ = some x₀) :
      ∃ x₁, (s.put c x').heap c₀ = some x₁ ∧ x₁.fd = x₀.fd ∧
        (x₁.conn.state = .disconnected ↔ x₀.conn.state = .disconnected) := by
    rw [heap_put]
    split
    · next same =>
      obtain rfl := Option.some.inj (here.symm.trans (same ▸ there))
      exact ⟨x', rfl, fd, state⟩
    · exact ⟨x₀, there, rfl, Iff.rfl⟩
  refine ⟨⟨?_, ?_, ?_, ?_, ?_⟩, ?_, ?_, ?_, ?_, ?_⟩
  · intro c₁ c₂ x₁ x₂ there there' same
    obtain ⟨y₁, was, fd₁, -⟩ := before there
    obtain ⟨y₂, was', fd₂, -⟩ := before there'
    exact sound.fds c₁ c₂ y₁ y₂ was was' (fd₁.symm.trans (same.trans fd₂))
  · intro fd c found
    obtain ⟨x₀, was, rfl⟩ := sound.conns fd c found
    obtain ⟨x₁, there, same, -⟩ := after was
    exact ⟨x₁, there, same⟩
  · intro fd c found
    obtain ⟨x₀, was, rfl, isOpen⟩ := sound.epoll fd c found
    obtain ⟨x₁, there, same, state⟩ := after was
    exact ⟨x₁, there, same, fun closed => isOpen (state.mp closed)⟩
  · intro c₁ x₁ there isOpen
    obtain ⟨x₀, was, fd, inEpoll, closes, state⟩ := before there
    rw [fd, inEpoll, closes]
    exact sound.opened c₁ x₀ was fun closed => isOpen (state.mpr closed)
  · intro c₁ x₁ there closed
    obtain ⟨x₀, was, -, inEpoll, closes, state⟩ := before there
    rw [inEpoll, closes]
    exact sound.closed c₁ x₀ was (state.mp closed)
  · intro c₁ beyond
    rw [heap_put]
    split
    · next same =>
      rw [same] at beyond
      rw [sound.fresh c beyond] at here
      cases here
    · exact sound.fresh c₁ beyond
  · intro c₁ owned
    obtain ⟨x₀, was⟩ := sound.owners c₁ owned
    obtain ⟨x₁, there, -⟩ := after was
    exact ⟨x₁, there⟩
  · intro c₁ member
    obtain ⟨x₀, was, found⟩ := sound.active c₁ member
    obtain ⟨x₁, there, fd, -⟩ := after was
    exact ⟨x₁, there, fd ▸ found⟩
  · intro c₁ x₁ there closed found
    obtain ⟨x₀, was, fd, -, -, state⟩ := before there
    rw [fd] at found
    exact sound.erased c₁ x₀ was (state.mp closed) found
  · intro c₁ x₁ task there
    obtain ⟨x₀, was, -, -, -, state⟩ := before there
    exact state.mpr (sound.removing c₁ x₀ task was)

/-- Only the phase, the queue and the other owners change. -/
theorem Sound.frame {phase : ServerPhase} {pending : List ServerTask} {held : List ℕ}
    (sound : Sound s)
    (owners : ∀ c ∈ TcpServer.owners { s with phase := phase, pending := pending, held := held },
      ∃ x, s.heap c = some x)
    (active : ∀ c ∈ TcpServer.active { s with phase := phase }, c ∈ s.active ∨
      ∃ x, s.heap c = some x ∧ s.conns.lookup x.fd = some c)
    (tasks : ∀ c, ServerTask.removeConnection c ∈ s.tasks ↔
      ServerTask.removeConnection c ∈
        TcpServer.tasks { s with phase := phase, pending := pending }) :
    Sound { s with phase := phase, pending := pending, held := held } where
  toSafe := ⟨sound.fds, sound.conns, sound.epoll, sound.opened, sound.closed⟩
  fresh := sound.fresh
  owners := owners
  active c member := (active c member).elim (sound.active c) id
  erased c x here closed found := (tasks c).mp (sound.erased c x here closed found)
  removing c x task := sound.removing c x ((tasks c).mpr task)

theorem mem_tasks_append {task task' : ServerTask} :
    task ∈ tasks { s with pending := s.pending ++ [task'] } ↔ task ∈ s.tasks ∨ task = task' := by
  simp only [tasks]
  split <;> simp only [List.mem_append, List.mem_singleton, or_assoc]

/-- An owner after a task has been queued. -/
theorem mem_owners_append {task : ServerTask}
    (owned : c ∈ owners { s with pending := s.pending ++ [task] }) :
    c ∈ s.owners ∨ c = task.conn := by
  rw [mem_owners, List.map_append, List.mem_append, List.map_singleton, List.mem_singleton] at owned
  rw [mem_owners]
  tauto

/-- What a connection does outside itself when it closes. -/
theorem handleClose_eq (here : s.heap c = some x) (inEpoll : x.inEpoll = true) :
    s.handleClose c =
      { s.put c { x with inEpoll := false, closes := x.closes + 1 } with
        epoll := Function.update s.epoll x.fd none
        pending := s.pending ++ [.removeConnection c] } := by
  rw [handleClose, updateChannel_of_inEpoll here inEpoll, removeChannel, here]
  dsimp only
  rw [if_pos inEpoll, removeConnection, TcpServer.put, TcpServer.put]
  dsimp only
  rw [Function.update_self, Function.update_idem]
  rfl

theorem put_put (s : TcpServer) (c : ℕ) (x x' : ServerConn) :
    (s.put c x).put c x' = s.put c x' := by
  rw [put, put, put]
  dsimp only
  rw [Function.update_idem]

/-- A connection closes: its entry in epoll is gone, and that in the table is about to be erased. -/
theorem Sound.close (sound : Sound s) (here : s.heap c = some x)
    (isOpen : x.conn.state ≠ .disconnected) (fd : x'.fd = x.fd) (inEpoll : x'.inEpoll = false)
    (closes : x'.closes = 1) (closed : x'.conn.state = .disconnected) :
    Sound { s.put c x' with
      epoll := Function.update s.epoll x.fd none
      pending := s.pending ++ [.removeConnection c] } := by
  obtain ⟨inEpoch, found, -, -⟩ := sound.opened c x here isOpen
  -- a connection that is there now is the one that has closed, or one with another descriptor
  have before {c₁ : ℕ} {x₁ : ServerConn} (there : (s.put c x').heap c₁ = some x₁) :
      (c₁ = c ∧ x₁ = x') ∨ (c₁ ≠ c ∧ s.heap c₁ = some x₁ ∧ x₁.fd ≠ x.fd) := by
    rw [heap_put] at there
    split at there
    · next same => exact .inl ⟨same, (Option.some.inj there).symm⟩
    · next other =>
      exact .inr ⟨other, there, fun same => other (sound.fds c₁ c x₁ x there here same)⟩
  have after {c₁ : ℕ} {x₁ : ServerConn} (there : s.heap c₁ = some x₁) :
      ∃ x₂, (s.put c x').heap c₁ = some x₂ ∧ x₂.fd = x₁.fd := by
    rw [heap_put]
    split
    · next same =>
      obtain rfl := Option.some.inj (here.symm.trans (same ▸ there))
      exact ⟨x', rfl, fd⟩
    · exact ⟨x₁, there, rfl⟩
  refine ⟨⟨?_, ?_, ?_, ?_, ?_⟩, ?_, ?_, ?_, ?_, ?_⟩
  · intro c₁ c₂ x₁ x₂ there there' same
    rcases before there with ⟨rfl, rfl⟩ | ⟨other, was, otherFd⟩ <;>
      rcases before there' with ⟨rfl, rfl⟩ | ⟨other', was', otherFd'⟩
    · rfl
    · exact absurd (same.symm.trans fd) otherFd'
    · exact absurd (same.trans fd) otherFd
    · exact sound.fds c₁ c₂ x₁ x₂ was was' same
  · intro fd₁ c₁ found
    obtain ⟨x₁, was, same⟩ := sound.conns fd₁ c₁ found
    obtain ⟨x₂, there, fd₂⟩ := after was
    exact ⟨x₂, there, fd₂.trans same⟩
  · intro fd₁ c₁ found
    dsimp only at found
    rw [Function.update_apply] at found
    split at found
    · cases found
    · next other =>
      obtain ⟨x₁, was, rfl, isOpen⟩ := sound.epoll fd₁ c₁ found
      refine ⟨x₁, ?_, rfl, isOpen⟩
      show (s.put c x').heap c₁ = some x₁
      rw [heap_put, if_neg, was]
      rintro rfl
      obtain rfl := Option.some.inj (here.symm.trans was)
      exact other rfl
  · intro c₁ x₁ there isOpen
    rcases before there with ⟨rfl, rfl⟩ | ⟨other, was, otherFd⟩
    · exact absurd closed isOpen
    · dsimp only
      rw [Function.update_of_ne otherFd]
      exact sound.opened c₁ x₁ was isOpen
  · intro c₁ x₁ there closed
    rcases before there with ⟨rfl, rfl⟩ | ⟨other, was, -⟩
    · exact ⟨inEpoll, closes⟩
    · exact sound.closed c₁ x₁ was closed
  · intro c₁ beyond
    show (s.put c x').heap c₁ = none
    rw [heap_put]
    split
    · next same =>
      rw [same] at beyond
      rw [sound.fresh c beyond] at here
      cases here
    · exact sound.fresh c₁ beyond
  · intro c₁ owned
    have was : ∃ x₁, s.heap c₁ = some x₁ := by
      rcases mem_owners_append (s := s.put c x') owned with before | rfl
      · exact sound.owners c₁ before
      · exact ⟨x, here⟩
    obtain ⟨x₁, was⟩ := was
    obtain ⟨x₂, there, -⟩ := after was
    exact ⟨x₂, there⟩
  · intro c₁ member
    obtain ⟨x₁, was, found⟩ := sound.active c₁ member
    obtain ⟨x₂, there, fd₂⟩ := after was
    exact ⟨x₂, there, fd₂ ▸ found⟩
  · intro c₁ x₁ there closed found
    refine (mem_tasks_append (s := s.put c x')).mpr ?_
    rcases before there with ⟨rfl, rfl⟩ | ⟨other, was, -⟩
    · exact .inr rfl
    · exact .inl (sound.erased c₁ x₁ was closed found)
  · intro c₁ x₁ task there
    rcases before there with ⟨rfl, rfl⟩ | ⟨other, was, -⟩
    · exact closed
    · rcases (mem_tasks_append (s := s.put c x')).mp task with before | same
      · exact sound.removing c₁ x₁ before was
      · exact absurd (ServerTask.removeConnection.inj same) other

/-- What the member functions of a connection keep: one that is closed stays closed, and does not
touch its channel. -/
def Respects (f : TcpConnection → TcpConnection) : Prop :=
  ∀ t, t.state = .disconnected → (f t).state = .disconnected ∧ (f t).writing = t.writing

/-- A member function of a connection that is there: the connection changes, or it closes. -/
theorem Sound.act_eq (sound : Sound s) (here : s.heap c = some x) (respects : Respects f) :
    s.act c f =
      if x.conn.state ≠ .disconnected ∧ (f x.conn).state = .disconnected then
        { s.put c { x with conn := f x.conn, inEpoll := false, closes := x.closes + 1 } with
          epoll := Function.update s.epoll x.fd none
          pending := s.pending ++ [.removeConnection c] }
      else s.put c { x with conn := f x.conn } := by
  rw [TcpServer.act, here]
  dsimp only
  have here' : (s.put c { x with conn := f x.conn }).heap c = some { x with conn := f x.conn } := by
    rw [heap_put, if_pos rfl]
  by_cases isOpen : x.conn.state = .disconnected
  · rw [if_pos (respects x.conn isOpen).2, if_neg fun h => h.1 isOpen, if_neg fun h => h.1 isOpen]
  · obtain ⟨-, -, inEpoll, -⟩ := sound.opened c x here isOpen
    have update : (if (f x.conn).writing = x.conn.writing then
        s.put c { x with conn := f x.conn }
        else (s.put c { x with conn := f x.conn }).updateChannel c) =
          s.put c { x with conn := f x.conn } := by
      rw [updateChannel_of_inEpoll here' inEpoll]
      exact ite_self _
    rw [update, handleClose_eq here' inEpoll, put_put]
    rfl

/-- A member function is called. -/
theorem Sound.act (sound : Sound s) (there : ∃ x, s.heap c = some x) (respects : Respects f) :
    Sound (s.act c f) := by
  obtain ⟨x, here⟩ := there
  rw [sound.act_eq here respects]
  split
  · next closes =>
    obtain ⟨-, -, -, unclosed⟩ := sound.opened c x here closes.1
    exact sound.close (x := x) here closes.1 rfl rfl (congrArg (· + 1) unclosed) closes.2
  · next stays =>
    refine sound.put here rfl rfl rfl ⟨fun closed => ?_, fun closed => (respects _ closed).1⟩
    by_contra isOpen
    exact stays ⟨isOpen, closed⟩

/-- What a member function of a connection leaves alone. -/
theorem Sound.act_frame (sound : Sound s) (there : ∃ x, s.heap c = some x)
    (respects : Respects f) : (s.act c f).phase = s.phase ∧ (s.act c f).fault = s.fault := by
  obtain ⟨x, here⟩ := there
  rw [sound.act_eq here respects]
  split <;> exact ⟨rfl, rfl⟩

/-- A member function of a connection that has been destroyed. -/
theorem act_of_none (gone : s.heap c = none) : s.act c f = { s with fault := true } := by
  rw [TcpServer.act, gone]

theorem Sound.misused (sound : Sound s) : Sound { s with fault := true } :=
  ⟨⟨sound.fds, sound.conns, sound.epoll, sound.opened, sound.closed⟩, sound.fresh, sound.owners,
    sound.active, sound.erased, sound.removing⟩

/-! ## New connections, and tasks -/

/-- A descriptor that may be given away is that of no connection. -/
theorem isFree_iff (sound : Sound s) :
    s.isFree fd = true ↔ ∀ c x, s.heap c = some x → x.fd ≠ fd := by
  simp only [isFree, List.all_eq_true, List.mem_range, Bool.not_eq_true', Option.any_eq_false,
    decide_eq_false_iff_not]
  refine ⟨fun free c x here => free c ?_ x here, fun free c _ x here => free c x here⟩
  by_contra beyond
  rw [sound.fresh c (Nat.le_of_not_lt beyond)] at here
  cases here

/-- Neither the table nor epoll has an entry for the descriptor of a new connection. -/
theorem newConnection_eq (sound : Sound s) (free : ∀ c x, s.heap c = some x → x.fd ≠ fd) :
    s.newConnection fd =
      { s.put s.count { fd := fd, inEpoll := true } with
        count := s.count + 1
        conns := s.conns.insert fd s.count
        epoll := Function.update s.epoll fd (some s.count) } := by
  have unlisted : s.conns.lookup fd = none := by
    refine Option.eq_none_iff_forall_ne_some.mpr fun c found => ?_
    obtain ⟨x, here, same⟩ := sound.conns fd c found
    exact free c x here same
  have unwatched : s.epoll fd = none := by
    refine Option.eq_none_iff_forall_ne_some.mpr fun c found => ?_
    obtain ⟨x, here, same, -⟩ := sound.epoll fd c found
    exact free c x here same
  rw [newConnection, unlisted]
  dsimp only [Option.isSome_none, Bool.false_eq_true, if_false, put]
  rw [updateChannel]
  dsimp only [put]
  rw [Function.update_self]
  dsimp only
  rw [unwatched, Function.update_idem]
  rfl

/-- A new connection is in the table and in epoll. -/
theorem Sound.newConnection (sound : Sound s) (free : ∀ c x, s.heap c = some x → x.fd ≠ fd) :
    Sound (s.newConnection fd) := by
  rw [newConnection_eq sound free]
  have before {c₁ : ℕ} {x₁ : ServerConn}
      (there : (s.put s.count { fd := fd, inEpoll := true }).heap c₁ = some x₁) :
      (c₁ = s.count ∧ x₁ = { fd := fd, inEpoll := true }) ∨
        (c₁ ≠ s.count ∧ s.heap c₁ = some x₁ ∧ x₁.fd ≠ fd) := by
    rw [heap_put] at there
    split at there
    · next same => exact .inl ⟨same, (Option.some.inj there).symm⟩
    · next other => exact .inr ⟨other, there, free c₁ x₁ there⟩
  have after {c₁ : ℕ} {x₁ : ServerConn} (was : s.heap c₁ = some x₁) :
      (s.put s.count { fd := fd, inEpoll := true }).heap c₁ = some x₁ := by
    rw [heap_put, if_neg]
    · exact was
    · rintro rfl
      rw [sound.fresh _ (Nat.le_refl _)] at was
      cases was
  have new : (s.put s.count { fd := fd, inEpoll := true }).heap s.count =
      some { fd := fd, inEpoll := true } := by
    rw [heap_put, if_pos rfl]
  refine ⟨⟨?_, ?_, ?_, ?_, ?_⟩, ?_, ?_, ?_, ?_, ?_⟩
  · intro c₁ c₂ x₁ x₂ there there' same
    rcases before there with ⟨rfl, rfl⟩ | ⟨other, was, otherFd⟩ <;>
      rcases before there' with ⟨rfl, rfl⟩ | ⟨other', was', otherFd'⟩
    · rfl
    · exact absurd same.symm otherFd'
    · exact absurd same otherFd
    · exact sound.fds c₁ c₂ x₁ x₂ was was' same
  · intro fd₁ c₁ found
    dsimp only at found
    rw [UnorderedMap.lookup_insert] at found
    split at found
    · next same =>
      obtain rfl := Option.some.inj found
      exact ⟨_, new, same.symm⟩
    · obtain ⟨x₁, was, same⟩ := sound.conns fd₁ c₁ found
      exact ⟨x₁, after was, same⟩
  · intro fd₁ c₁ found
    dsimp only at found
    rw [Function.update_apply] at found
    split at found
    · next same =>
      obtain rfl := Option.some.inj found
      exact ⟨_, new, same.symm, fun closed => by cases closed⟩
    · obtain ⟨x₁, was, same, isOpen⟩ := sound.epoll fd₁ c₁ found
      exact ⟨x₁, after was, same, isOpen⟩
  · intro c₁ x₁ there isOpen
    dsimp only
    rcases before there with ⟨rfl, rfl⟩ | ⟨-, was, otherFd⟩
    · rw [Function.update_self, UnorderedMap.lookup_insert, if_pos rfl]
      exact ⟨rfl, rfl, rfl, rfl⟩
    · rw [Function.update_of_ne otherFd, UnorderedMap.lookup_insert, if_neg otherFd]
      exact sound.opened c₁ x₁ was isOpen
  · intro c₁ x₁ there closed
    rcases before there with ⟨rfl, rfl⟩ | ⟨-, was, -⟩
    · cases closed
    · exact sound.closed c₁ x₁ was closed
  · intro c₁ beyond
    show (s.put s.count _).heap c₁ = none
    rw [heap_put, if_neg (Nat.ne_of_gt beyond)]
    exact sound.fresh c₁ (Nat.le_of_succ_le beyond)
  · intro c₁ owned
    have was : (c₁ = s.count) ∨ c₁ ∈ s.owners := by
      rcases mem_owners.mp owned with ⟨fd₁, found⟩ | other
      · dsimp only at found
        rw [UnorderedMap.lookup_insert] at found
        split at found
        · exact .inl (Option.some.inj found).symm
        · exact .inr (mem_owners_of_lookup found)
      · exact .inr (mem_owners.mpr (.inr other))
    rcases was with rfl | was
    · exact ⟨_, new⟩
    · obtain ⟨x₁, was⟩ := sound.owners c₁ was
      exact ⟨x₁, after was⟩
  · intro c₁ member
    obtain ⟨x₁, was, found⟩ := sound.active c₁ member
    refine ⟨x₁, after was, ?_⟩
    dsimp only
    rw [UnorderedMap.lookup_insert, if_neg (free c₁ x₁ was)]
    exact found
  · intro c₁ x₁ there closed found
    rcases before there with ⟨rfl, rfl⟩ | ⟨-, was, otherFd⟩
    · cases closed
    · dsimp only at found
      rw [UnorderedMap.lookup_insert, if_neg otherFd] at found
      exact sound.erased c₁ x₁ was closed found
  · intro c₁ x₁ task there
    rcases before there with ⟨rfl, rfl⟩ | ⟨-, was, -⟩
    · obtain ⟨x₁, was⟩ := sound.owners s.count (mem_owners_of_mem_tasks task)
      rw [sound.fresh _ (Nat.le_refl _)] at was
      cases was
    · exact sound.removing c₁ x₁ task was

/-- The first task of the queue erases the entry of its connection. -/
theorem Sound.runRemoval (sound : Sound s) {left ran : List ServerTask}
    (phase : s.phase = .pending (.removeConnection c :: left) ran) (taken : Option ℕ) :
    Sound (runTask { s with phase := .pending left (ran ++ [.removeConnection c]) } taken
      (.removeConnection c)) := by
  have task : .removeConnection c ∈ s.tasks := by
    rw [tasks, phase]
    exact List.mem_append_left _ (List.mem_cons_self ..)
  obtain ⟨x, here⟩ := sound.owners c (mem_owners_of_mem_tasks task)
  have closed := sound.removing c x task here
  have other {c₁ : ℕ} (other : c₁ ≠ c) : .removeConnection c₁ ∈ s.tasks ↔
      ServerTask.removeConnection c₁ ∈ left ++ s.pending := by
    rw [tasks, phase]
    simp [other]
  have owners {c₁ : ℕ} {conns : UnorderedMap ℕ ℕ}
      (fewer : ∀ fd, conns.lookup fd = some c₁ → s.conns.lookup fd = some c₁)
      (owned : c₁ ∈ TcpServer.owners { s with
        phase := .pending left (ran ++ [.removeConnection c]), conns := conns }) :
      ∃ x, s.heap c₁ = some x := by
    refine sound.owners c₁ (mem_owners.mpr ?_)
    rcases mem_owners.mp owned with ⟨fd, found⟩ | pending | held | run
    · exact .inl ⟨fd, fewer fd found⟩
    · exact .inr (.inl pending)
    · exact .inr (.inr (.inl held))
    · refine .inr (.inr (.inr ?_))
      rw [phase]
      simp only [phaseOwners, List.map_append, List.map_cons, List.mem_append, List.mem_cons,
        List.map_nil, List.not_mem_nil] at run ⊢
      tauto
  -- after the task, the connection is not in the table
  have spec : ∃ conns : UnorderedMap ℕ ℕ,
      runTask { s with phase := .pending left (ran ++ [.removeConnection c]) } taken
        (.removeConnection c) =
          { s with phase := .pending left (ran ++ [.removeConnection c]), conns := conns } ∧
        conns.lookup x.fd ≠ some c ∧
        (∀ fd c₁, conns.lookup fd = some c₁ → s.conns.lookup fd = some c₁) ∧
        ∀ fd c₁, c₁ ≠ c → s.conns.lookup fd = some c₁ → conns.lookup fd = some c₁ := by
    rw [runTask]
    dsimp only
    rw [here]
    dsimp only
    split
    · next found =>
      refine ⟨s.conns.erase x.fd, rfl, ?_, fun fd c₁ found => ?_, fun fd c₁ other found' => ?_⟩
      · rw [UnorderedMap.lookup_erase, if_pos rfl]
        simp
      · rw [UnorderedMap.lookup_erase] at found
        exact (Option.ite_none_left_eq_some.mp found).2
      · rw [UnorderedMap.lookup_erase, if_neg]
        · exact found'
        · rintro rfl
          exact other (Option.some.inj (found'.symm.trans found))
    · next absent => exact ⟨s.conns, rfl, absent, fun _ _ found => found, fun _ _ _ found => found⟩
  obtain ⟨conns, same, gone, fewer, others⟩ := spec
  rw [same]
  refine ⟨⟨sound.fds, ?_, sound.epoll, ?_, sound.closed⟩, sound.fresh, ?_, ?_, ?_, ?_⟩
  · exact fun fd c₁ found => sound.conns fd c₁ (fewer fd c₁ found)
  · intro c₁ x₁ there isOpen
    obtain ⟨watched, found, rest⟩ := sound.opened c₁ x₁ there isOpen
    refine ⟨watched, others x₁.fd c₁ ?_ found, rest⟩
    rintro rfl
    obtain rfl := Option.some.inj (here.symm.trans there)
    exact isOpen closed
  · exact fun c₁ owned => owners (fun fd => fewer fd c₁) owned
  · intro c₁ member
    cases member
  · intro c₁ x₁ there closed found
    refine (other ?_).mp (sound.erased c₁ x₁ there closed (fewer x₁.fd c₁ found))
    rintro rfl
    obtain rfl := Option.some.inj (here.symm.trans there)
    exact gone found
  · intro c₁ x₁ task there
    by_cases same : c₁ = c
    · subst same
      obtain rfl := Option.some.inj (here.symm.trans there)
      exact closed
    · exact sound.removing c₁ x₁ ((other same).mpr task) there

/-! ## What the member functions do to a closed connection -/

theorem respects_run (h : Handler) (closes : Bool) (taken : List ℕ) :
    Respects (h.run closes taken) := by
  intro t closed
  have same : h.run closes taken t = t := if_pos closed
  rw [same]
  exact ⟨closed, rfl⟩

theorem respects_flush (taken : Option ℕ) (failed : Bool) :
    Respects (TcpConnection.flush taken failed) := by
  intro t closed
  rw [TcpConnection.flush, if_neg (by simp [closed]), TcpConnection.flushQueued, if_pos closed]
  split <;> exact ⟨closed, rfl⟩

theorem respects_sendInLoop (data : Bytes) (taken : Option ℕ) :
    Respects fun t => if t.state = .disconnected then t else t.sendBufferInLoop data taken := by
  intro t closed
  dsimp only
  rw [if_pos closed]
  exact ⟨closed, rfl⟩

theorem respects_call {i : ConnInput} (call : i.isCall = true) :
    Respects fun t => (t.step i).getD t := by
  intro t closed
  have unconnected : t.state ≠ .connected := by
    rw [closed]
    decide
  cases i with
  | send data taken =>
    show (t.send data taken).state = _ ∧ (t.send data taken).writing = _
    rw [TcpConnection.send, if_neg unconnected]
    exact ⟨closed, rfl⟩
  | queueFrame frame => exact ⟨closed, rfl⟩
  | shutdown =>
    show t.shutdown.state = _ ∧ t.shutdown.writing = _
    rw [TcpConnection.shutdown, if_neg unconnected]
    exact ⟨closed, rfl⟩
  | forceClose =>
    show t.forceClose.state = _ ∧ t.forceClose.writing = _
    rw [TcpConnection.forceClose, if_pos closed]
    exact ⟨closed, rfl⟩
  | flushQueued taken => cases call
  | writable taken => cases call
  | hangup => cases call

/-! ## One step -/

/-- Whoever has a connection is one of its owners. -/
theorem mem_owners_of_holds (holds : s.holds c = true) : c ∈ s.owners := by
  rw [mem_owners]
  rw [TcpServer.holds, Bool.or_eq_true, List.contains_iff_mem] at holds
  rcases holds with held | current
  · exact .inr (.inr (.inl held))
  · split at current
    · next active c' hs phase =>
      rw [phase]
      exact .inr (.inr (.inr (by simpa [phaseOwners, eq_comm] using current)))
    · cases current

/-- The phase changes. -/
theorem Sound.toPhase {phase : ServerPhase} (sound : Sound s)
    (owners : ∀ c ∈ phaseOwners phase, ∃ x, s.heap c = some x)
    (active : ∀ c ∈ TcpServer.active { s with phase := phase }, c ∈ s.active ∨
      ∃ x, s.heap c = some x ∧ s.conns.lookup x.fd = some c)
    (tasks : ∀ c, ServerTask.removeConnection c ∈ s.tasks ↔
      ServerTask.removeConnection c ∈ TcpServer.tasks { s with phase := phase }) :
    Sound { s with phase := phase } := by
  refine sound.frame (fun c owned => ?_) active tasks
  rcases mem_owners.mp owned with found | pending | held | here
  · exact sound.owners c (mem_owners.mpr (.inl found))
  · exact sound.owners c (mem_owners.mpr (.inr (.inl pending)))
  · exact sound.owners c (mem_owners.mpr (.inr (.inr (.inl held))))
  · exact owners c here

theorem Sound.poll (sound : Sound s) {active : List (Option (ℕ × Revents))}
    (phase : s.phase = .idle) (registered : active.all s.registered = true) :
    Sound { s with phase := .dispatching active none } := by
  refine sound.toPhase (fun c none => by cases none) (fun c member => .inr ?_) fun c => ?_
  · obtain ⟨entry, polled, same⟩ := List.mem_filterMap.mp member
    obtain ⟨⟨c', r⟩, rfl, rfl⟩ := Option.map_eq_some_iff.mp same
    have watched : (s.heap c').any (fun x => s.epoll x.fd = some c') = true :=
      List.all_eq_true.mp registered _ polled
    obtain ⟨x, here, found⟩ := (Option.any_eq_true _ _).mp watched
    obtain ⟨y, there, -, isOpen⟩ := sound.epoll x.fd c' (of_decide_eq_true found)
    obtain rfl := Option.some.inj (here.symm.trans there)
    exact ⟨x, here, (sound.opened c' x here isOpen).2.1⟩
  · rw [tasks, tasks, phase]

theorem Sound.handleEvent (sound : Sound s) (taken : s.move .handleEvent = some s') :
    Sound s' := by
  simp only [move] at taken
  split at taken
  · next active phase =>
    obtain rfl := Option.some.inj taken
    refine sound.toPhase (fun c none => by cases none) (fun c member => .inl ?_) fun c => ?_
    · rw [TcpServer.active, phase]
      exact member
    · rw [tasks, tasks, phase]
  · next c r active phase =>
    have first : c ∈ s.active := by
      rw [TcpServer.active, phase]
      exact List.mem_cons_self ..
    -- the entry in the table has kept the connection
    obtain ⟨x, here, -⟩ := sound.active c first
    rw [here] at taken
    obtain rfl := Option.some.inj taken
    refine sound.toPhase (fun c' owned => ?_) (fun c' member => .inl ?_) fun c' => ?_
    · obtain rfl := List.mem_singleton.mp owned
      exact ⟨x, here⟩
    · rw [TcpServer.active, phase]
      exact List.mem_cons_of_mem _ member
    · rw [tasks, tasks, phase]
  · cases taken

/-- A callback of the channel that is handled is called; the connection is kept meanwhile. -/
theorem Sound.nextHandler (sound : Sound s) {active : List (Option (ℕ × Revents))} {h : Handler}
    {hs : List Handler} (phase : s.phase = .dispatching active (some (c, h :: hs))) :
    Sound { s with phase := .dispatching active (some (c, hs)) } ∧ ∃ x, s.heap c = some x := by
  have there : ∃ x, s.heap c = some x := by
    refine sound.owners c (mem_owners.mpr (.inr (.inr (.inr ?_))))
    rw [phase]
    exact List.mem_singleton_self c
  refine ⟨sound.toPhase (fun c' owned => ?_) (fun c' member => .inl ?_) fun c' => ?_, there⟩
  · obtain rfl := List.mem_singleton.mp owned
    exact there
  · rw [TcpServer.active, phase]
    exact member
  · rw [tasks, tasks, phase]

theorem Sound.handle (sound : Sound s) {closes : Bool} {taken : List ℕ}
    (moved : s.move (.handle closes taken) = some s') : Sound s' := by
  simp only [move] at moved
  split at moved
  · next active c phase =>
    obtain rfl := Option.some.inj moved
    refine sound.toPhase (fun c none => by cases none) (fun c member => .inl ?_) fun c => ?_
    · rw [TcpServer.active, phase]
      exact member
    · rw [tasks, tasks, phase]
  · next active c h hs phase =>
    obtain rfl := Option.some.inj moved
    obtain ⟨next, there⟩ := sound.nextHandler phase
    exact next.act there (respects_run h closes taken)
  · cases moved

theorem Sound.doPending (sound : Sound s) (phase : s.phase = .dispatching [] none) :
    Sound { s with phase := .pending s.pending [], pending := [] } := by
  refine sound.frame (fun c owned => sound.owners c ?_) (fun c none => by cases none) fun c => ?_
  · rw [mem_owners] at owned ⊢
    rw [phaseOwners, List.append_nil] at owned
    have none : c ∉ List.map ServerTask.conn [] := List.not_mem_nil
    tauto
  · rw [tasks, tasks, phase]
    simp

/-- A posted `send` is run; its task keeps the connection. -/
theorem Sound.nextSend (sound : Sound s) {data : Bytes} {left ran : List ServerTask}
    (phase : s.phase = .pending (.sendInLoop c data :: left) ran) :
    Sound { s with phase := .pending left (ran ++ [.sendInLoop c data]) } ∧
      ∃ x, s.heap c = some x := by
  have owned (c' : ℕ)
      (member : c' ∈ phaseOwners (.pending left (ran ++ [.sendInLoop c data]))) :
      ∃ x, s.heap c' = some x := by
    refine sound.owners c' (mem_owners.mpr (.inr (.inr (.inr ?_))))
    rw [phase]
    simp only [phaseOwners, List.map_append, List.map_cons, List.mem_append, List.mem_cons,
      List.map_nil, List.not_mem_nil] at member ⊢
    tauto
  refine ⟨sound.toPhase owned (fun c none => by cases none) fun c' => ?_,
    owned c (by simp [phaseOwners, ServerTask.conn])⟩
  rw [tasks, tasks, phase]
  simp

theorem Sound.runTask (sound : Sound s) {taken : Option ℕ}
    (moved : s.move (.runTask taken) = some s') : Sound s' := by
  simp only [move] at moved
  split at moved
  · next task left ran phase =>
    obtain rfl := Option.some.inj moved
    cases task with
    | removeConnection c => exact sound.runRemoval phase taken
    | sendInLoop c data =>
      obtain ⟨next, there⟩ := sound.nextSend phase
      exact next.act there (respects_sendInLoop data taken)
  · next ran phase =>
    obtain rfl := Option.some.inj moved
    refine sound.toPhase (fun c none => by cases none) (fun c none => by cases none) fun c => ?_
    rw [tasks, tasks, phase]
    rfl
  · cases moved

theorem phase_of_flushed (flushed : s.phase.flushed = some c) :
    s.phase = .flushing c ∨ s.phase = .dropping c := by
  cases phase : s.phase <;> rw [phase] at flushed
  case flushing c' => exact .inl (congrArg _ (Option.some.inj flushed))
  case dropping c' => exact .inr (congrArg _ (Option.some.inj flushed))
  all_goals cases flushed

/-- `flushAll` goes on. -/
theorem Sound.goOn (sound : Sound s) (flushed : s.phase.flushed = some c) {phase : ServerPhase}
    (next : phase = .idle ∨ phase = .dropping c) : Sound { s with phase := phase } := by
  have tasks : s.tasks = s.pending := by
    rcases phase_of_flushed flushed with same | same <;> rw [TcpServer.tasks, same]
  rcases next with rfl | rfl <;>
    exact sound.toPhase (fun c none => by cases none) (fun c none => by cases none)
      fun c => by rw [tasks]; rfl

/-- `flushAll` uses a connection, which may have been destroyed. -/
theorem Sound.use (sound : Sound s) (flushed : s.phase.flushed = some c)
    (respects : Respects f) : Sound (TcpServer.act { s with phase := .idle } c f) := by
  have idle := sound.goOn flushed (.inl rfl)
  cases here : s.heap c with
  | none =>
    rw [act_of_none (s := { s with phase := .idle }) here]
    exact idle.misused
  | some x => exact idle.act ⟨x, here⟩ respects

theorem Sound.move (sound : Sound s) (moved : s.move i = some s') : Sound s' := by
  cases i with
  | poll active =>
    simp only [TcpServer.move] at moved
    split at moved
    · next phase =>
      obtain ⟨registered, same⟩ := Option.ite_none_right_eq_some.mp moved
      obtain rfl := Option.some.inj same
      exact sound.poll phase registered
    · cases moved
  | handleEvent => exact sound.handleEvent moved
  | handle closes taken => exact sound.handle moved
  | accept fd =>
    simp only [TcpServer.move] at moved
    split at moved
    · obtain ⟨free, same⟩ := Option.ite_none_right_eq_some.mp moved
      obtain rfl := Option.some.inj same
      exact sound.newConnection ((isFree_iff sound).mp free)
    · cases moved
  | doPending =>
    simp only [TcpServer.move] at moved
    split at moved
    · next phase =>
      obtain rfl := Option.some.inj moved
      exact sound.doPending phase
    · cases moved
  | runTask taken => exact sound.runTask moved
  | lockOwner c =>
    simp only [TcpServer.move] at moved
    split at moved
    · next phase _ =>
      obtain rfl := Option.some.inj moved
      refine sound.toPhase (fun c none => by cases none) (fun c none => by cases none) fun c => ?_
      rw [tasks, tasks, phase]
    · cases moved
  | flushQueued taken failed =>
    simp only [TcpServer.move] at moved
    split at moved
    · next c phase =>
      have flushed : s.phase.flushed = some c := by rw [phase, ServerPhase.flushed]
      split_ifs at moved
      · obtain rfl := Option.some.inj moved
        exact sound.goOn flushed (.inr rfl)
      · obtain rfl := Option.some.inj moved
        exact sound.use flushed (respects_flush taken failed)
    · cases moved
  | dropFrames =>
    simp only [TcpServer.move] at moved
    split at moved
    · next c phase =>
      obtain rfl := Option.some.inj moved
      exact sound.use (by rw [phase, ServerPhase.flushed]) (respects_flush none false)
    · cases moved
  | call c i =>
    obtain ⟨⟨-, holds, call⟩, same⟩ := Option.ite_none_right_eq_some.mp moved
    obtain rfl := Option.some.inj same
    exact sound.act (sound.owners c (mem_owners_of_holds holds)) (respects_call call)
  | post c data =>
    obtain ⟨may, same⟩ := Option.ite_none_right_eq_some.mp moved
    obtain rfl := Option.some.inj same
    obtain ⟨holds, -⟩ := Bool.and_eq_true _ _ |>.mp may
    refine sound.frame (fun c' owned => sound.owners c' ?_) (fun c' member => .inl member)
      fun c' => ?_
    · rcases mem_owners_append owned with before | rfl
      · exact before
      · exact mem_owners_of_holds holds
    · exact (mem_tasks_append.trans (by simp)).symm
  | hold c =>
    obtain ⟨owned, same⟩ := Option.ite_none_right_eq_some.mp moved
    obtain rfl := Option.some.inj same
    refine sound.frame (fun c' owned' => sound.owners c' ?_) (fun c' member => .inl member)
      fun c' => .rfl
    rw [mem_owners, List.mem_append, List.mem_singleton] at owned'
    rw [mem_owners] at owned ⊢
    grind
  | release c =>
    obtain ⟨owned, same⟩ := Option.ite_none_right_eq_some.mp moved
    obtain rfl := Option.some.inj same
    refine sound.frame (fun c' owned' => sound.owners c' ?_) (fun c' member => .inl member)
      fun c' => .rfl
    rw [mem_owners] at owned' ⊢
    have fewer : c' ∈ s.held.erase c → c' ∈ s.held := List.mem_of_mem_erase
    tauto

/-! ## Flushes -/

/-- A task that erases an entry leaves the phase alone. -/
theorem runTask_removal (there : ∃ x, s.heap c = some x) (taken : Option ℕ) :
    (s.runTask taken (.removeConnection c)).phase = s.phase ∧
      (s.runTask taken (.removeConnection c)).fault = s.fault := by
  obtain ⟨x, here⟩ := there
  rw [TcpServer.runTask, here]
  dsimp only
  split <;> exact ⟨rfl, rfl⟩

/-- Steps other than those of a flush use no connection that has been destroyed, and only the test
of an owner makes a flush the next to be done. -/
theorem Sound.move_frame (sound : Sound s) (moved : s.move i = some s')
    (other : i.isFlush = false) : s'.fault = s.fault ∧
      ∀ c, s'.phase.flushed = some c → s.phase.flushed = some c ∨
        i = .lockOwner c ∧ s.phase = .idle ∧ s' = { s with phase := .flushing c } ∧
          ∃ x, s.heap c = some x := by
  cases i with
  | poll active =>
    simp only [TcpServer.move] at moved
    split at moved
    · obtain ⟨-, same⟩ := Option.ite_none_right_eq_some.mp moved
      obtain rfl := Option.some.inj same
      exact ⟨rfl, fun c flushing => by cases flushing⟩
    · cases moved
  | handleEvent =>
    simp only [TcpServer.move] at moved
    split at moved
    · obtain rfl := Option.some.inj moved
      exact ⟨rfl, fun c flushing => by cases flushing⟩
    · next c r active phase =>
      obtain ⟨x, here, -⟩ := sound.active c (by
        rw [TcpServer.active, phase]
        exact List.mem_cons_self ..)
      rw [here] at moved
      obtain rfl := Option.some.inj moved
      exact ⟨rfl, fun c flushing => by cases flushing⟩
    · cases moved
  | handle closes taken =>
    simp only [TcpServer.move] at moved
    split at moved
    · obtain rfl := Option.some.inj moved
      exact ⟨rfl, fun c flushing => by cases flushing⟩
    · next active c h hs phase =>
      obtain rfl := Option.some.inj moved
      obtain ⟨next, there⟩ := sound.nextHandler phase
      obtain ⟨same, fault⟩ := next.act_frame there (respects_run h closes taken)
      exact ⟨fault, fun c flushing => by rw [same] at flushing; cases flushing⟩
    · cases moved
  | accept fd =>
    simp only [TcpServer.move] at moved
    split at moved
    · next phase =>
      obtain ⟨free, same⟩ := Option.ite_none_right_eq_some.mp moved
      obtain rfl := Option.some.inj same
      rw [newConnection_eq sound ((isFree_iff sound).mp free)]
      exact ⟨rfl, fun c flushing => .inl flushing⟩
    · cases moved
  | doPending =>
    simp only [TcpServer.move] at moved
    split at moved
    · obtain rfl := Option.some.inj moved
      exact ⟨rfl, fun c flushing => by cases flushing⟩
    · cases moved
  | runTask taken =>
    simp only [TcpServer.move] at moved
    split at moved
    · next task left ran phase =>
      obtain rfl := Option.some.inj moved
      cases task with
      | removeConnection c =>
        have there : ∃ x, s.heap c = some x := by
          refine sound.owners c (mem_owners.mpr (.inr (.inr (.inr ?_))))
          rw [phase]
          exact List.mem_cons_self ..
        obtain ⟨same, fault⟩ := runTask_removal
          (s := { s with phase := .pending left (ran ++ [.removeConnection c]) }) there taken
        exact ⟨fault, fun c flushing => by rw [same] at flushing; cases flushing⟩
      | sendInLoop c data =>
        obtain ⟨next, there⟩ := sound.nextSend phase
        obtain ⟨same, fault⟩ := next.act_frame there (respects_sendInLoop data taken)
        refine ⟨fault, fun c flushing => ?_⟩
        rw [TcpServer.runTask, same] at flushing
        cases flushing
    · obtain rfl := Option.some.inj moved
      exact ⟨rfl, fun c flushing => by cases flushing⟩
    · cases moved
  | lockOwner c =>
    simp only [TcpServer.move] at moved
    split at moved
    · next x phase here =>
      obtain rfl := Option.some.inj moved
      refine ⟨rfl, fun c' flushing => .inr ?_⟩
      obtain rfl := Option.some.inj flushing
      exact ⟨rfl, phase, rfl, x, here⟩
    · cases moved
  | flushQueued taken failed => cases other
  | dropFrames => cases other
  | call c i =>
    obtain ⟨⟨-, holds, call⟩, same⟩ := Option.ite_none_right_eq_some.mp moved
    obtain rfl := Option.some.inj same
    obtain ⟨same, fault⟩ :=
      sound.act_frame (sound.owners c (mem_owners_of_holds holds)) (respects_call call)
    exact ⟨fault, fun c flushing => .inl (same ▸ flushing)⟩
  | post c data =>
    obtain ⟨-, same⟩ := Option.ite_none_right_eq_some.mp moved
    obtain rfl := Option.some.inj same
    exact ⟨rfl, fun c flushing => .inl flushing⟩
  | hold c =>
    obtain ⟨-, same⟩ := Option.ite_none_right_eq_some.mp moved
    obtain rfl := Option.some.inj same
    exact ⟨rfl, fun c flushing => .inl flushing⟩
  | release c =>
    obtain ⟨-, same⟩ := Option.ite_none_right_eq_some.mp moved
    obtain rfl := Option.some.inj same
    exact ⟨rfl, fun c flushing => .inl flushing⟩

/-- While a flush is under way, its connection goes if and only if a thread gives it up. -/
theorem owned_of_flushed (flushed : s.phase.flushed = some c) (moved : s.move i = some s')
    (other : i.isFlush = false) : s'.phase = s.phase ∧ s'.heap = s.heap ∧
      (c ∈ s.owners → (c ∈ s'.owners ↔ s.givesUp i = false)) := by
  cases i with
  | post c' data =>
    obtain ⟨-, same⟩ := Option.ite_none_right_eq_some.mp moved
    obtain rfl := Option.some.inj same
    refine ⟨rfl, rfl, fun owned => iff_of_true ?_ rfl⟩
    rw [mem_owners] at owned ⊢
    rw [List.map_append, List.mem_append]
    tauto
  | hold c' =>
    obtain ⟨-, same⟩ := Option.ite_none_right_eq_some.mp moved
    obtain rfl := Option.some.inj same
    refine ⟨rfl, rfl, fun owned => iff_of_true ?_ rfl⟩
    rw [mem_owners] at owned ⊢
    rw [List.mem_append]
    tauto
  | release c' =>
    obtain ⟨-, same⟩ := Option.ite_none_right_eq_some.mp moved
    obtain rfl := Option.some.inj same
    refine ⟨rfl, rfl, fun owned => ?_⟩
    rw [givesUp, flushed]
    by_cases same : c = c'
    · simp [same]
    · refine iff_of_true ?_ (by simp [same])
      -- another connection is released
      rw [mem_owners] at owned ⊢
      rw [List.mem_erase_of_ne same]
      exact owned
  | flushQueued taken failed => cases other
  | dropFrames => cases other
  | call c' i =>
    obtain ⟨⟨outside, -⟩, -⟩ := Option.ite_none_right_eq_some.mp moved
    cases flushed.symm.trans outside
  | _ =>
    rcases phase_of_flushed flushed with phase | phase <;>
    · simp only [TcpServer.move, phase] at moved
      cases moved

/-! ## All runs -/

variable {h : List (TransitionSystem.Step TcpServer ServerInput)}

theorem sound_of_run (run : machine.Run h s) :
    Sound s ∧ ∀ c x, s.heap c = some x → c ∈ s.owners :=
  run.invariant (I := fun s => Sound s ∧ ∀ c x, s.heap c = some x → c ∈ s.owners)
    (by
      rintro _ rfl
      have empty (fd : ℕ) : (∅ : UnorderedMap ℕ ℕ).lookup fd = none := AList.lookup_empty fd
      refine ⟨⟨⟨?_, ?_, ?_, ?_, ?_⟩, fun _ _ => rfl, ?_, ?_, ?_, ?_⟩, ?_⟩
      · exact fun _ _ _ _ none => by cases none
      · exact fun fd c found => by rw [empty fd] at found; cases found
      · exact fun _ _ none => by cases none
      · exact fun _ _ none => by cases none
      · exact fun _ _ none => by cases none
      · exact fun _ none => by cases none
      · exact fun _ none => by cases none
      · exact fun _ _ none => by cases none
      · exact fun _ _ none => by cases none
      · exact fun _ _ none => by cases none)
    fun s i s' step kept => by
      obtain ⟨t, moved, rfl⟩ := Option.map_eq_some_iff.mp step
      have sound := kept.1
      exact ⟨(sound.move moved).collect, fun _ _ => mem_owners_of_collect⟩

/-- What the schedule says about the connection that `flushAll` is about to use, and about those
that it has used. -/
structure Flushed (h : List (TransitionSystem.Step TcpServer ServerInput)) (s : TcpServer) :
    Prop where
  givenUp : givenUp h = true ↔ ∃ c, s.phase.flushed = some c ∧ s.heap c = none
  fault : s.fault = true ↔ flushedLate h = true

theorem Flushed.givenUp_iff (flushed : Flushed h s) (now : s.phase.flushed = some c) :
    TcpServer.givenUp h = true ↔ s.heap c = none := by
  rw [flushed.givenUp, now]
  constructor
  · rintro ⟨c', same, gone⟩
    rwa [Option.some.inj same]
  · exact fun gone => ⟨c, rfl, gone⟩

/-- `flushAll` uses a connection and is done with it. -/
theorem Flushed.use (flushed : Flushed h s) (sound : Sound s) (now : s.phase.flushed = some c)
    (respects : Respects f) (flush : i.isFlush = true) :
    Flushed (⟨s, i, (act { s with phase := .idle } c f).collect⟩ :: h)
      (act { s with phase := .idle } c f).collect := by
  have idle := sound.goOn now (.inl rfl)
  have gone := flushed.givenUp_iff now
  have quiet : s.givesUp i = false := by cases i <;> first | rfl | cases flush
  have fresh : TcpServer.givenUp (⟨s, i, (act { s with phase := .idle } c f).collect⟩ :: h) =
      false := by
    rw [TcpServer.givenUp, quiet, flush]
    rfl
  cases here : s.heap c with
  | none =>
    rw [act_of_none (s := { s with phase := .idle }) here] at fresh ⊢
    refine ⟨iff_of_false (Bool.eq_false_iff.mp fresh) ?_, iff_of_true rfl ?_⟩
    · rintro ⟨c', flushing, -⟩
      cases flushing
    · rw [flushedLate, flush, gone.mpr here]
      rfl
  | some x =>
    obtain ⟨same, fault⟩ := idle.act_frame ⟨x, here⟩ respects
    refine ⟨iff_of_false (Bool.eq_false_iff.mp fresh) ?_, ?_⟩
    · rintro ⟨c', flushing, -⟩
      cases (congrArg ServerPhase.flushed same).symm.trans flushing
    · have kept : TcpServer.givenUp h = false := by
        rw [Bool.eq_false_iff, ne_eq, gone, here]
        exact Option.some_ne_none x
      rw [flushedLate, kept, Bool.and_false, Bool.false_or, ← flushed.fault]
      exact Bool.eq_iff_iff.mp fault

/-- A flush begins, or goes on. -/
theorem Flushed.flush (flushed : Flushed h s) (sound : Sound s)
    (owned : ∀ c x, s.heap c = some x → c ∈ s.owners) (moved : s.move i = some s')
    (flush : i.isFlush = true) : Flushed (⟨s, i, s'.collect⟩ :: h) s'.collect := by
  cases i with
  | flushQueued taken failed =>
    simp only [TcpServer.move] at moved
    split at moved
    · next c phase =>
      have now : s.phase.flushed = some c := by rw [phase, ServerPhase.flushed]
      split_ifs at moved with drops
      · -- the connection is there and the flush goes on
        obtain rfl := Option.some.inj moved
        obtain ⟨x, here, -⟩ := (Option.any_eq_true _ _).mp drops
        have kept : TcpServer.givenUp h = false := by
          rw [Bool.eq_false_iff, ne_eq, flushed.givenUp_iff now, here]
          exact Option.some_ne_none x
        refine ⟨iff_of_false (fun late => by cases late) ?_, ?_⟩
        · rintro ⟨c', same, gone⟩
          obtain rfl := Option.some.inj same
          have owner := owned c x here
          rw [mem_owners, phase] at owner
          rw [heap_collect, if_pos (mem_owners.mpr owner)] at gone
          cases here.symm.trans gone
        · rw [flushedLate, kept, Bool.and_false, Bool.false_or]
          exact flushed.fault
      · obtain rfl := Option.some.inj moved
        exact flushed.use sound now (respects_flush taken failed) rfl
    · cases moved
  | dropFrames =>
    simp only [TcpServer.move] at moved
    split at moved
    · next c phase =>
      obtain rfl := Option.some.inj moved
      exact flushed.use sound (by rw [phase, ServerPhase.flushed]) (respects_flush none false) rfl
    · cases moved
  | _ => cases flush

/-- The other steps. -/
theorem Flushed.other (flushed : Flushed h s) (sound : Sound s)
    (owned : ∀ c x, s.heap c = some x → c ∈ s.owners) (moved : s.move i = some s')
    (other : i.isFlush = false) : Flushed (⟨s, i, s'.collect⟩ :: h) s'.collect := by
  obtain ⟨fault, flushing⟩ := sound.move_frame moved other
  refine ⟨?_, ?_⟩
  · rw [TcpServer.givenUp, other, Bool.not_false, Bool.true_and, Bool.or_eq_true]
    cases now : s.phase.flushed with
    | some c =>
      obtain ⟨phase, heap, stays⟩ := owned_of_flushed now moved other
      have now' : s'.collect.phase.flushed = some c := (congrArg _ phase).trans now
      have gone : (∃ c', s'.collect.phase.flushed = some c' ∧ s'.collect.heap c' = none) ↔
          (c ∈ s'.owners → s.heap c = none) := by
        rw [now', ← heap]
        constructor
        · rintro ⟨c', same, gone⟩ owner
          obtain rfl := Option.some.inj same
          rwa [heap_collect, if_pos owner] at gone
        · exact fun gone => ⟨c, rfl, ite_eq_right_iff.mpr gone⟩
      rw [gone, flushed.givenUp_iff now]
      cases here : s.heap c with
      | none => exact iff_of_true (.inr rfl) fun _ => rfl
      | some x =>
        have stay := stays (owned c x here)
        constructor
        · rintro (given | gone) owner
          · rw [stay.mp owner] at given
            cases given
          · cases gone
        · intro gone
          refine .inl (Bool.not_eq_false _ ▸ fun kept => ?_)
          cases gone (stay.mpr kept)
    | none =>
      -- the test has found an owner
      have kept : s.givesUp i = false := by
        cases i <;> first | rfl | (rw [givesUp, now]; rfl)
      rw [kept, flushed.givenUp, now]
      refine iff_of_false ?_ ?_
      · rintro (given | ⟨c, same, -⟩)
        · cases given
        · cases same
      · rintro ⟨c, now', gone⟩
        rcases flushing c now' with before | ⟨rfl, idle, rfl, x, here⟩
        · cases now.symm.trans before
        · have owner := owned c x here
          rw [mem_owners, idle] at owner
          rw [heap_collect, if_pos (mem_owners.mpr owner)] at gone
          cases here.symm.trans gone
  · rw [flushedLate, other, Bool.false_and, Bool.false_or, ← flushed.fault]
    exact Bool.eq_iff_iff.mp fault

theorem flushed_of_run (run : machine.Run h s) : Flushed h s := by
  induction run with
  | start first =>
    obtain rfl := first
    refine ⟨iff_of_false (fun late => by cases late) ?_, iff_of_false ?_ ?_⟩
    · rintro ⟨c, flushing, -⟩
      cases flushing
    · exact fun fault => by cases fault
    · exact fun late => by cases late
  | @next h s s' i before step flushed =>
    obtain ⟨sound, owned⟩ := sound_of_run before
    obtain ⟨t, moved, rfl⟩ := Option.map_eq_some_iff.mp step
    cases flush : i.isFlush with
    | false => exact flushed.other sound owned moved flush
    | true => exact flushed.flush sound owned moved flush

/-- In every run, every connection that is open is served, and `closeCb` is called once for each,
though its channel may have been reported before it closed and its descriptor is used again. A
connection is used after it has been destroyed if and only if `flushAll` calls one, or goes on with
one, whose last owner a thread has given up since the test. -/
theorem safe_of_run (run : machine.Run h s) : Safe s ∧ (s.fault = true ↔ flushedLate h = true) :=
  ⟨(sound_of_run run).1.toSafe, (flushed_of_run run).fault⟩

/-- No connection is used after it has been destroyed if the threads keep the last owner of one that
`flushAll` is about to use. -/
theorem fault_of_keeps (run : machine.Run h s)
    (keeps : ∀ t ∈ h, t.pre.givesUp t.input = false) : s.fault = false := by
  have never : flushedLate h = false ∧ givenUp h = false := by
    clear run
    induction h with
    | nil => exact ⟨rfl, rfl⟩
    | cons t h ih =>
      obtain ⟨now, before⟩ := List.forall_mem_cons.mp keeps
      obtain ⟨late, given⟩ := ih before
      rw [flushedLate, givenUp, late, given, now]
      simp
  rw [Bool.eq_false_iff, ne_eq, (flushed_of_run run).fault, never.1]
  exact Bool.false_ne_true

/-- A thread gives up a connection that is closed when `flushAll` has found it alive. -/
theorem exists_fault : ∃ h s, machine.Run h s ∧ s.fault = true := by
  have initial : machine.init {} := rfl
  obtain ⟨h, s, run, -, fault⟩ := machine.exists_run
    [.poll [none], .handleEvent, .accept 5, .hold 0, .call 0 .forceClose, .doPending,
      .runTask none, .runTask none, .lockOwner 0, .release 0, .flushQueued none false]
    (fun _ _ => true) (fun s => s.fault) initial (by decide)
  exact ⟨h, s, run, fault⟩

/-- Between two rounds of the loop with nothing queued, and when nobody else has a connection, the
connections that have not been destroyed are those in the table, and they are open. -/
theorem reclaimed_of_run (run : machine.Run h s) (idle : s.phase = .idle) (empty : s.pending = [])
    (released : s.held = []) :
    ∀ c, (∃ x, s.heap c = some x) ↔
      ∃ fd x, s.conns.lookup fd = some c ∧ s.heap c = some x ∧ x.fd = fd ∧
        x.conn.state ≠ .disconnected ∧ s.epoll fd = some c := by
  obtain ⟨sound, owned⟩ := sound_of_run run
  refine fun c => ⟨fun ⟨x, here⟩ => ?_, fun ⟨_, x, _, here, _⟩ => ⟨x, here⟩⟩
  have listed : ∃ fd, s.conns.lookup fd = some c := by
    rcases mem_owners.mp (owned c x here) with found | pending | held | running
    · exact found
    · rw [empty] at pending
      cases pending
    · rw [released] at held
      cases held
    · rw [idle] at running
      cases running
  obtain ⟨fd, found⟩ := listed
  obtain ⟨y, there, rfl⟩ := sound.conns fd c found
  obtain rfl := Option.some.inj (here.symm.trans there)
  -- the entry of a closed connection would be about to be erased
  have isOpen : x.conn.state ≠ .disconnected := by
    intro closed
    have task := sound.erased c x here closed found
    rw [tasks, idle, empty] at task
    cases task
  exact ⟨x.fd, x, found, here, rfl, isOpen, (sound.opened c x here isOpen).1⟩

/-- Whether the loop is between two rounds. -/
def atRest (s : TcpServer) : Bool :=
  match s.phase with
  | .idle => true
  | _ => false

theorem phase_of_atRest (rest : s.atRest = true) : s.phase = .idle := by
  unfold atRest at rest
  split at rest
  · assumption
  · cases rest

/-- A connection is closed by its peer while somebody has it; its descriptor is used again when it
has been released. -/
theorem reclaimed_of_run_reused :
    ∃ s : TcpServer, s.count = 2 ∧ s.heap 0 = none ∧
      ∃ x, s.heap 1 = some x ∧ x.fd = 5 ∧ s.conns.lookup 5 = some 1 := by
  have initial : machine.init {} := rfl
  obtain ⟨h, s, run, -, reached⟩ := machine.exists_run
    [.poll [none], .handleEvent, .accept 5, .doPending, .runTask none,
      .poll [some (0, { readable := true }), none], .handleEvent, .hold 0, .handle true [],
      .handle true [], .handleEvent, .doPending, .runTask none, .runTask none, .release 0,
      .poll [none], .handleEvent, .accept 5, .doPending, .runTask none] (fun _ _ => true)
    (fun s => s.count = 2 && s.pending.isEmpty && s.held.isEmpty && (s.heap 0).isNone &&
      (s.heap 1).any (fun x => x.fd = 5) && s.atRest)
    initial (by decide)
  simp only [Bool.and_eq_true, decide_eq_true_eq, List.isEmpty_iff, Option.isNone_iff_eq_none,
    Option.any_eq_true] at reached
  obtain ⟨⟨⟨⟨⟨count, empty⟩, released⟩, gone⟩, x, here, fd⟩, phase⟩ := reached
  have idle := phase_of_atRest phase
  obtain ⟨fd', y, found, there, same, -⟩ :=
    (reclaimed_of_run run idle empty released 1).mp ⟨x, here⟩
  obtain rfl := Option.some.inj (here.symm.trans there)
  subst same
  exact ⟨s, count, gone, x, here, fd, fd ▸ found⟩

/-- A connection closes while its channel is still to be handled; the frame that it has got since
is dropped, while a thread gives it up that is not its last owner. -/
theorem safe_of_run_closedBefore :
    ∃ s : TcpServer, s.count = 2 ∧ Safe s ∧ s.fault = false ∧
      ∃ x, s.heap 1 = some x ∧ x.closes = 1 := by
  have initial : machine.init {} := rfl
  obtain ⟨h, s, run, reached⟩ := machine.exists_history
    [.poll [none, none], .handleEvent, .accept 5, .hold 0, .handleEvent, .accept 6, .hold 1,
      .doPending, .runTask none,
      .poll [some (0, { readable := true }), some (1, { readable := true, writable := true })],
      .handleEvent, .call 1 .forceClose, .call 1 (.queueFrame [7]), .handle false [],
      .handle false [], .handleEvent, .handle false [], .handle false [], .handle false [],
      .doPending, .runTask none, .runTask none, .lockOwner 1, .hold 1, .flushQueued none false,
      .release 1, .dropFrames]
    (fun h s => s.count = 2 && !flushedLate h && (s.heap 1).any fun x => x.closes = 1) initial
    (by decide)
  simp only [Bool.and_eq_true, decide_eq_true_eq, Bool.not_eq_true', Option.any_eq_true] at reached
  obtain ⟨⟨count, late⟩, x, here, closes⟩ := reached
  obtain ⟨safe, fault⟩ := safe_of_run run
  refine ⟨s, count, safe, ?_, x, here, closes⟩
  rw [Bool.eq_false_iff, ne_eq, fault, late]
  exact Bool.false_ne_true

end TcpServer

end Perfacet
