import Perfacet.Lib.Transition
import Perfacet.Netlib.Buffer

/-!
# The output of a connection

What is sent on a `TcpConnection` goes to the socket at once if nothing waits, and to `output` if
not. Frames are put in a queue of their own and written together, at the end of a round of the
event loop; what the socket does not take of them goes to `output`. A socket takes any prefix of
what it is offered, or nothing.

Of a `Buffer` only the readable bytes matter here.

## Main definitions

* `TcpConnection.machine` — a connection on its loop thread
* `TcpConnection.InOrder` — nothing is lost, duplicated or reordered, and nothing is left when the
  connection closes gracefully
* `TcpConnection.KeepsOrder` — a step that finds the other place empty

## Main results

* `TcpConnection.inOrder_of_run` — every run of such steps is in order
-/

namespace Perfacet

/-- How many frames `writev` is offered. -/
def kMaxIov : ℕ := 64

inductive ConnState
  | connecting | connected | disconnecting | disconnected
  deriving DecidableEq, Repr

/-- The members of a connection that are about its output; beside them the bytes that the socket has
taken, what has been sent and queued in the order of the calls, and how much that was when the
connection closed gracefully. -/
structure TcpConnection where
  state : ConnState := .connected
  writing : Bool := false
  output : Bytes := []
  outQueue : List Bytes := []
  wire : Bytes := []
  submitted : Bytes := []
  drained : Option Bytes := none
  deriving DecidableEq, Repr

/-- What happens on the loop thread, with what the socket takes of what it is offered: a number of
bytes, or nothing for `EAGAIN`. -/
inductive ConnInput
  | send (data : Bytes) (taken : Option ℕ)
  | queueFrame (frame : Bytes)
  | flushQueued (taken : Option ℕ)
  | writable (taken : List ℕ)
  | shutdown
  | forceClose
  | hangup
  deriving DecidableEq, Repr

namespace TcpConnection

/-! ## The code -/

def sendBufferInLoop (s : TcpConnection) (data : Bytes) (taken : Option ℕ) : TcpConnection :=
  -- data is written at once only if nothing waits
  let written :=
    if !s.writing && s.output.isEmpty && s.outQueue.isEmpty then data.take (taken.getD 0) else []
  let remaining := data.drop written.length
  let s := { s with wire := s.wire ++ written, submitted := s.submitted ++ data }
  if remaining.isEmpty then s else { s with output := s.output ++ remaining, writing := true }

def send (s : TcpConnection) (data : Bytes) (taken : Option ℕ) : TcpConnection :=
  if s.state = .connected then s.sendBufferInLoop data taken else s

def handleClose (s : TcpConnection) : TcpConnection := { s with state := .disconnected }

def closeInLoop (s : TcpConnection) : TcpConnection :=
  if s.output.isEmpty && s.outQueue.isEmpty then { s.handleClose with drained := some s.submitted }
  else { s with state := .disconnecting }

/-- The loop of `handleWrite`: what is written, and what is left. -/
def writeOut : List ℕ → Bytes → Bytes × Bytes
  | _, [] => ([], [])
  | [], output => ([], output)
  | n :: taken, output =>
    if n = 0 then ([], output)
    else
      let (written, left) := writeOut taken (output.drop n)
      (output.take n ++ written, left)

def handleWrite (s : TcpConnection) (taken : List ℕ) : TcpConnection :=
  if s.writing then
    let (written, left) := writeOut taken s.output
    let s := { s with wire := s.wire ++ written, output := left }
    if left.isEmpty then
      let s := { s with writing := false }
      -- a close that had to wait is taken up again
      if s.state = .disconnecting then s.closeInLoop else s
    else s
  else s

def queueFrame (s : TcpConnection) (frame : Bytes) : TcpConnection :=
  { s with outQueue := s.outQueue ++ [frame], submitted := s.submitted ++ frame }

/-- The loop of `flushQueued` that removes what was written. -/
def consume : ℕ → List Bytes → List Bytes
  | _, [] => []
  | written, f :: q =>
    if written = 0 then f :: q
    else if f.length ≤ written then consume (written - f.length) q
    else f.drop written :: q

def flushQueued (s : TcpConnection) (taken : Option ℕ) : TcpConnection :=
  if s.outQueue.isEmpty then s
  else if s.state = .disconnected then { s with outQueue := [] }
  else
    -- what waits in `output` is not looked at
    let offered := (s.outQueue.take kMaxIov).flatten
    let written := offered.take (taken.getD 0)
    let left := consume written.length s.outQueue
    let s := { s with wire := s.wire ++ written, outQueue := [] }
    if left.isEmpty then s else { s with output := s.output ++ left.flatten, writing := true }

def shutdown (s : TcpConnection) : TcpConnection :=
  if s.state = .connected then closeInLoop { s with state := .disconnecting } else s

def forceClose (s : TcpConnection) : TcpConnection :=
  if s.state = .disconnected then s else closeInLoop { s with state := .disconnecting }

/-- A connection that is closed has no channel that could be writable. -/
def step (s : TcpConnection) : ConnInput → Option TcpConnection
  | .send data taken => some (s.send data taken)
  | .queueFrame frame => some (s.queueFrame frame)
  | .flushQueued taken => some (s.flushQueued taken)
  | .writable taken => if s.state = .disconnected then none else some (s.handleWrite taken)
  | .shutdown => some s.shutdown
  | .forceClose => some s.forceClose
  | .hangup => some s.handleClose

/-- A connection that has been attached to its loop. -/
def machine : TransitionSystem TcpConnection ConnInput where
  init s := s = {}
  step := step

/-! ## The order -/

/-- What the socket has taken is a prefix of what has been submitted. As long as the connection is
open, the rest is waiting, in order; when it has closed gracefully, nothing was left. -/
structure InOrder (s : TcpConnection) : Prop where
  wire : s.wire <+: s.submitted
  rest : s.state ≠ .disconnected → s.wire ++ s.output ++ s.outQueue.flatten = s.submitted
  graceful : ∀ all, s.drained = some all → s.wire = all

/-- What is sent finds no frames in the queue, and frames are flushed when nothing else waits, or
the socket takes none of them. -/
structure KeepsOrder (t : TransitionSystem.Step TcpConnection ConnInput) : Prop where
  send : ∀ data taken, t.input = .send data taken → data ≠ [] → t.pre.outQueue.flatten = []
  flushQueued : ∀ taken, t.input = .flushQueued taken → taken.getD 0 ≠ 0 →
    t.pre.output = [] ∨ t.pre.outQueue.flatten = []

variable {s s' : TcpConnection} {i : ConnInput} {data : Bytes} {taken : Option ℕ}

/-! ## What the loops write -/

theorem writeOut_append (taken : List ℕ) (output : Bytes) :
    (writeOut taken output).1 ++ (writeOut taken output).2 = output := by
  induction taken generalizing output with
  | nil => cases output <;> rfl
  | cons n taken ih =>
    cases output with
    | nil => rfl
    | cons b output =>
      rw [writeOut]
      split
      · rfl
      · dsimp only
        rw [List.append_assoc, ih, List.take_append_drop]
      · simp

theorem flatten_consume (written : ℕ) (q : List Bytes) :
    (consume written q).flatten = q.flatten.drop written := by
  induction q generalizing written with
  | nil => simp [consume]
  | cons f q ih =>
    rw [consume]
    split
    · next zero => rw [zero, List.drop_zero]
    split
    · next whole => rw [ih, List.flatten_cons, List.drop_append, List.drop_eq_nil_of_le whole]; rfl
    · next part =>
      rw [List.flatten_cons, List.flatten_cons, List.drop_append_of_le_length (by omega)]

/-! ## One step -/

/-- Besides, only a connection that is closed has been drained. -/
structure Kept (s : TcpConnection) : Prop extends InOrder s where
  closed : s.drained ≠ none → s.state = .disconnected

/-- While a connection is open, it is enough that what waits is what has not been taken. -/
theorem Kept.of_rest (opened : s.drained = none)
    (rest : s.wire ++ s.output ++ s.outQueue.flatten = s.submitted) : Kept s := by
  refine ⟨⟨?_, fun _ => rest, fun all drained => ?_⟩, fun drained => ?_⟩
  · rw [← rest, List.append_assoc]
    exact List.prefix_append _ _
  · rw [opened] at drained
    cases drained
  · exact absurd opened drained

theorem Kept.opened (kept : Kept s) (isOpen : s.state ≠ .disconnected) : s.drained = none := by
  by_contra drained
  exact isOpen (kept.closed drained)

theorem Kept.handleClose (kept : Kept s) : Kept s.handleClose where
  wire := kept.wire
  rest isOpen := absurd rfl isOpen
  graceful := kept.graceful
  closed _ := rfl

theorem Kept.closeInLoop (kept : Kept s) (isOpen : s.state ≠ .disconnected) :
    Kept s.closeInLoop := by
  have rest := kept.rest isOpen
  rw [TcpConnection.closeInLoop]
  split
  -- Nothing waits, so all has been taken.
  · next nothing =>
    obtain ⟨output, outQueue⟩ := Bool.and_eq_true _ _ |>.mp nothing
    rw [List.isEmpty_iff.mp output, List.isEmpty_iff.mp outQueue, List.flatten_nil,
      List.append_nil, List.append_nil] at rest
    refine ⟨⟨kept.wire, fun isOpen => absurd rfl isOpen, fun all drained => ?_⟩, fun _ => rfl⟩
    exact rest.trans (Option.some.inj drained)
  · exact .of_rest (kept.opened isOpen) rest

/-- To begin to close is to close, or to wait. -/
theorem Kept.disconnecting (kept : Kept s) (isOpen : s.state ≠ .disconnected) :
    Kept (TcpConnection.closeInLoop { s with state := .disconnecting }) := by
  have begun : Kept { s with state := .disconnecting } :=
    .of_rest (kept.opened isOpen) (kept.rest isOpen)
  exact begun.closeInLoop fun same => by cases same

theorem Kept.shutdown (kept : Kept s) : Kept s.shutdown := by
  rw [TcpConnection.shutdown]
  split
  · next connected => exact kept.disconnecting (by rw [connected]; decide)
  · exact kept

theorem Kept.forceClose (kept : Kept s) : Kept s.forceClose := by
  rw [TcpConnection.forceClose]
  split
  · exact kept
  · next isOpen => exact kept.disconnecting isOpen

/-- What is written at once is a prefix of the data, and nothing unless the rest follows it. -/
theorem written_append (s : TcpConnection) (data : Bytes) (taken : Option ℕ) :
    ∃ written, written ++ data.drop written.length = data ∧ (written = [] ∨ s.output = []) ∧
      s.sendBufferInLoop data taken =
        if (data.drop written.length).isEmpty then
          { s with wire := s.wire ++ written, submitted := s.submitted ++ data }
        else
          { s with
            wire := s.wire ++ written
            submitted := s.submitted ++ data
            output := s.output ++ data.drop written.length
            writing := true } := by
  refine ⟨_, ?_, ?_, rfl⟩
  · split
    · exact List.prefix_iff_eq_append.mp (List.take_prefix _ _)
    · rfl
  · split
    · next idle =>
      simp only [Bool.and_eq_true, List.isEmpty_iff] at idle
      exact .inr idle.1.2
    · exact .inl rfl

/-- What is sent when no frames are queued comes after what waits in `output`. -/
theorem Kept.send (kept : Kept s) (free : data ≠ [] → s.outQueue.flatten = []) :
    Kept (s.send data taken) := by
  rw [TcpConnection.send]
  split
  · next connected =>
    have isOpen : s.state ≠ .disconnected := by rw [connected]; decide
    have opened := kept.opened isOpen
    have rest := kept.rest isOpen
    obtain ⟨written, parts, apart, same⟩ := written_append s data taken
    have next : s.wire ++ written ++ (s.output ++ data.drop written.length) ++
        s.outQueue.flatten = s.submitted ++ data := by
      by_cases nothing : data = []
      · rw [nothing, List.drop_nil, List.append_nil] at parts
        rw [nothing, parts, List.drop_nil, List.append_nil, List.append_nil, List.append_nil]
        exact rest
      · rw [free nothing, List.append_nil] at rest ⊢
        rw [← rest]
        rcases apart with none | empty
        · rw [none, List.append_nil, List.append_assoc]
          rfl
        · rw [empty, List.nil_append, List.append_nil, List.append_assoc, parts]
    rw [same]
    split
    · next all =>
      rw [List.isEmpty_iff.mp all, List.append_nil] at next
      exact .of_rest opened next
    · exact .of_rest opened next
  · exact kept

theorem Kept.queueFrame (kept : Kept s) (frame : Bytes) : Kept (s.queueFrame frame) := by
  refine ⟨⟨?_, fun isOpen => ?_, kept.graceful⟩, kept.closed⟩
  · exact kept.wire.trans (List.prefix_append _ _)
  · show s.wire ++ s.output ++ (s.outQueue ++ [frame]).flatten = s.submitted ++ frame
    rw [List.flatten_append, List.flatten_singleton, ← List.append_assoc, kept.rest isOpen]

/-- Frames that are written, at most as many as `writev` is offered, are the first ones. -/
theorem offered_append (s : TcpConnection) (taken : Option ℕ) :
    ∃ written, (taken.getD 0 = 0 → written = []) ∧
      written ++ (consume written.length s.outQueue).flatten = s.outQueue.flatten ∧
      written = ((s.outQueue.take kMaxIov).flatten).take (taken.getD 0) := by
  refine ⟨_, fun zero => by rw [zero, List.take_zero], ?_, rfl⟩
  have first : ((s.outQueue.take kMaxIov).flatten).take (taken.getD 0) <+: s.outQueue.flatten :=
    (List.take_prefix _ _).trans (by
      conv_rhs => rw [← List.take_append_drop kMaxIov s.outQueue, List.flatten_append]
      exact List.prefix_append _ _)
  rw [flatten_consume]
  exact List.prefix_iff_eq_append.mp first

/-- Frames that are flushed when nothing else waits are the next to be written. -/
theorem Kept.flushQueued (kept : Kept s)
    (free : taken.getD 0 ≠ 0 → s.output = [] ∨ s.outQueue.flatten = []) :
    Kept (s.flushQueued taken) := by
  rw [TcpConnection.flushQueued]
  split
  · exact kept
  split
  · next closed =>
    exact ⟨⟨kept.wire, fun isOpen => absurd closed isOpen, kept.graceful⟩, fun _ => closed⟩
  · next isOpen =>
    have opened := kept.opened isOpen
    have rest := kept.rest isOpen
    obtain ⟨written, none, parts, same⟩ := offered_append s taken
    -- with nothing in `output`, the frames are the next bytes
    have next : s.wire ++ written ++ (s.output ++ (consume written.length s.outQueue).flatten) =
        s.submitted := by
      rw [← rest]
      by_cases zero : taken.getD 0 = 0
      · rw [none zero] at parts ⊢
        rw [List.append_nil, List.append_assoc, ← parts]
        rfl
      rcases free zero with empty | empty
      · rw [empty, List.nil_append, List.append_nil, List.append_assoc, parts]
      · obtain ⟨first, left⟩ := List.append_eq_nil_iff.mp (parts.trans empty)
        rw [left, first, empty, List.append_nil, List.append_nil, List.append_nil]
    dsimp only
    rw [← same]
    split
    · next all =>
      refine .of_rest opened ?_
      rw [List.isEmpty_iff.mp all, List.flatten_nil, List.append_nil] at next
      exact (List.append_nil _).trans next
    · refine .of_rest opened ?_
      exact (List.append_nil _).trans next

theorem Kept.handleWrite (kept : Kept s) (isOpen : s.state ≠ .disconnected) (taken : List ℕ) :
    Kept (s.handleWrite taken) := by
  rw [TcpConnection.handleWrite]
  split
  · have parts := writeOut_append taken s.output
    have rest := kept.rest isOpen
    have opened := kept.opened isOpen
    dsimp only
    generalize writeOut taken s.output = out at parts
    -- what is written comes from the front of `output`
    have next : s.wire ++ out.1 ++ out.2 ++ s.outQueue.flatten = s.submitted := by
      rw [List.append_assoc s.wire, parts]
      exact rest
    split
    · split
      · next disconnecting =>
        have written : Kept { s with wire := s.wire ++ out.1, output := out.2, writing := false } :=
          .of_rest opened next
        exact written.closeInLoop isOpen
      · exact .of_rest opened next
    · exact .of_rest opened next
  · exact kept

theorem Kept.step (kept : Kept s) (taken : s.step i = some s') (order : KeepsOrder ⟨s, i, s'⟩) :
    Kept s' := by
  cases i with
  | send data taken' =>
    obtain rfl := Option.some.inj taken
    exact kept.send (order.send data taken' rfl)
  | queueFrame frame =>
    obtain rfl := Option.some.inj taken
    exact kept.queueFrame frame
  | flushQueued taken' =>
    obtain rfl := Option.some.inj taken
    exact kept.flushQueued (order.flushQueued taken' rfl)
  | writable taken' =>
    obtain ⟨isOpen, same⟩ := Option.ite_none_left_eq_some.mp taken
    obtain rfl := Option.some.inj same
    exact kept.handleWrite isOpen taken'
  | shutdown =>
    obtain rfl := Option.some.inj taken
    exact kept.shutdown
  | forceClose =>
    obtain rfl := Option.some.inj taken
    exact kept.forceClose
  | hangup =>
    obtain rfl := Option.some.inj taken
    exact kept.handleClose

/-! ## All runs -/

/-- If no data is sent while frames are queued, and no frames are written while data waits in
`output`, the output of a connection is in order, and a graceful close has written all of it. -/
theorem inOrder_of_run {h : List (TransitionSystem.Step TcpConnection ConnInput)}
    (run : machine.Run h s) (steps : ∀ t ∈ h, KeepsOrder t) : InOrder s := by
  have kept : Kept s := by
    refine run.invariant_where (C := KeepsOrder) (I := Kept) ?_ ?_ steps
    · rintro _ rfl
      exact .of_rest rfl rfl
    · intro t taken order kept
      exact kept.step taken order
  exact kept.toInOrder

/-- Whether a step keeps the order. -/
def keepsOrder (s : TcpConnection) : ConnInput → Bool
  | .send data _ => data.isEmpty || s.outQueue.flatten.isEmpty
  | .flushQueued taken =>
    taken.getD 0 = 0 || s.output.isEmpty || s.outQueue.flatten.isEmpty
  | _ => true

theorem keepsOrder_of_checked {t : TransitionSystem.Step TcpConnection ConnInput}
    (checked : keepsOrder t.pre t.input = true) : KeepsOrder t := by
  refine ⟨fun data taken send some => ?_, fun taken flush some => ?_⟩
  · rw [send, keepsOrder, Bool.or_eq_true, List.isEmpty_iff, List.isEmpty_iff] at checked
    exact checked.resolve_left some
  · rw [flush, keepsOrder, Bool.or_eq_true, Bool.or_eq_true, decide_eq_true_eq,
      List.isEmpty_iff, List.isEmpty_iff, or_assoc] at checked
    exact checked.resolve_left some

/-- A response is written in parts, and the connection closes when its last byte has been taken. -/
theorem inOrder_of_run_closed :
    ∃ s : TcpConnection, s.wire = [1, 2, 3, 4] ∧ s.state = .disconnected ∧ InOrder s := by
  obtain ⟨h, s, run, checked, reached⟩ := machine.exists_run
    [.send [1, 2] (some 1), .writable [1], .queueFrame [3], .queueFrame [4], .flushQueued (some 1),
      .shutdown, .writable [1]] keepsOrder
    (fun s => s.wire = [1, 2, 3, 4] && s.state = .disconnected) rfl (by decide)
  simp only [Bool.and_eq_true, decide_eq_true_eq] at reached
  exact ⟨s, reached.1, reached.2,
    inOrder_of_run run fun t member => keepsOrder_of_checked (checked t member)⟩

/-- The socket takes the first of two bytes, and then a frame: the frame overtakes the second
byte. Data that is sent while a frame is queued overtakes the frame. -/
theorem frames_overtake :
    (∃ h s, machine.Run h s ∧ s.wire = [1, 3] ∧ s.submitted = [1, 2, 3] ∧ ¬ InOrder s) ∧
      ∃ h s, machine.Run h s ∧ s.wire = [2] ∧ s.submitted = [1, 2] ∧ ¬ InOrder s := by
  refine ⟨?_, ?_⟩
  · obtain ⟨h, s, run, -, reached⟩ := machine.exists_run
      [.send [1, 2] (some 1), .queueFrame [3], .flushQueued (some 1)] (fun _ _ => true)
      (fun s => s.wire = [1, 3] && s.submitted = [1, 2, 3]) rfl (by decide)
    simp only [Bool.and_eq_true, decide_eq_true_eq] at reached
    refine ⟨h, s, run, reached.1, reached.2, fun order => ?_⟩
    have wire := order.wire
    rw [reached.1, reached.2] at wire
    revert wire
    decide
  · obtain ⟨h, s, run, -, reached⟩ := machine.exists_run
      [.queueFrame [1], .send [2] none, .writable [1]] (fun _ _ => true)
      (fun s => s.wire = [2] && s.submitted = [1, 2]) rfl (by decide)
    simp only [Bool.and_eq_true, decide_eq_true_eq] at reached
    refine ⟨h, s, run, reached.1, reached.2, fun order => ?_⟩
    have wire := order.wire
    rw [reached.1, reached.2] at wire
    revert wire
    decide

end TcpConnection

end Perfacet
