import Perfacet.Lib.Transition
import Perfacet.Netlib.Buffer

/-!
# The vector of a buffer

`netlib::Buffer` as the code has it: a vector and two indices, with nothing that keeps them in
order. A difference of two sizes that would wrap and an access outside of the vector make an
operation fail. They never do: every operation is the one of the structure that carries the order of
the indices, and for a reader the buffer is a queue of bytes.

Sizes are natural numbers, since what they count is in memory, and a vector can always grow.

## Main definitions

* `RawBuffer.apply` — the operations
* `RawBuffer.machine` — all sequences of them, from a fresh buffer of any size
* `BufferOp.queue` — what they do to a queue of bytes

## Main results

* `RawBuffer.apply_toRaw` — the operations are those of `Buffer`
* `RawBuffer.refines_queue` — the indices, the accesses and the queue in every state reached
-/

namespace Perfacet

/-- The bytes on the stack that `readFd` reads to besides the vector. -/
def kBufferExtra : ℕ := 65536

structure RawBuffer where
  buf : Bytes
  readIdx : ℕ
  writeIdx : ℕ
  deriving DecidableEq, Repr

/-- What is done to a buffer; `readFd` with what `readv` has read, if it has not failed. -/
inductive BufferOp
  | append (data : Bytes)
  | retrieve (n : ℕ)
  | retrieveAll
  | readFd (got : Option Bytes)
  deriving DecidableEq, Repr

/-- What an operation does to a queue of bytes. -/
def BufferOp.queue (q : Bytes) : BufferOp → Bytes
  | .append data => q ++ data
  | .retrieve n => q.drop n
  | .retrieveAll => []
  | .readFd got => q ++ got.getD []

namespace RawBuffer

/-! ## The code -/

/-- A difference of two sizes. -/
def diff (m n : ℕ) : Option ℕ := if n ≤ m then some (m - n) else none

def fresh (init : ℕ) : RawBuffer where
  buf := List.replicate (kBufferPrepend + init) 0
  readIdx := kBufferPrepend
  writeIdx := kBufferPrepend

variable (b : RawBuffer)

def readableBytes : Option ℕ := diff b.writeIdx b.readIdx

def writableBytes : Option ℕ := diff b.buf.length b.writeIdx

def prependableBytes : ℕ := b.readIdx

/-- Read `n` bytes of the vector. -/
def load (pos n : ℕ) : Option Bytes :=
  if pos + n ≤ b.buf.length then some ((b.buf.drop pos).take n) else none

/-- Write to the vector. -/
def store (pos : ℕ) (data : Bytes) : Option RawBuffer :=
  if pos + data.length ≤ b.buf.length then some { b with buf := b.buf.overwrite pos data }
  else none

/-- What is readable, from `peek()` on. -/
def peek : Option Bytes := do
  let n ← b.readableBytes
  b.load b.readIdx n

def retrieveAll : RawBuffer := { b with readIdx := kBufferPrepend, writeIdx := kBufferPrepend }

def retrieve (n : ℕ) : Option RawBuffer := do
  let readable ← b.readableBytes
  pure (if n < readable then { b with readIdx := b.readIdx + n } else b.retrieveAll)

/-- `buf_.resize(n)` -/
def resize (n : ℕ) : RawBuffer :=
  { b with buf := b.buf.take n ++ List.replicate (n - b.buf.length) 0 }

def makeSpace (len : ℕ) : Option RawBuffer := do
  let writable ← b.writableBytes
  if writable + b.prependableBytes < len + kBufferPrepend then pure (b.resize (b.writeIdx + len))
  else
    let readable ← b.readableBytes
    let bytes ← b.load b.readIdx readable
    let b ← b.store kBufferPrepend bytes
    pure { b with readIdx := kBufferPrepend, writeIdx := kBufferPrepend + readable }

/-- The first line of `append`. -/
def ensure (len : ℕ) : Option RawBuffer := do
  let writable ← b.writableBytes
  if writable < len then b.makeSpace len else pure b

def append (data : Bytes) : Option RawBuffer := do
  let b ← b.ensure data.length
  let b ← b.store b.writeIdx data
  pure { b with writeIdx := b.writeIdx + data.length }

/-- The space that `readv` is offered. -/
def offered : Option ℕ := do
  let writable ← b.writableBytes
  pure (if writable < kBufferExtra then writable + kBufferExtra else writable)

/-- `readFd`; `readv` fills the vector first and the bytes on the stack then. -/
def readFd : Option Bytes → Option RawBuffer
  | none => pure b
  | some data => do
    let writable ← b.writableBytes
    let extrabuf := data.drop writable
    let b ← b.store b.writeIdx (data.take writable)
    if data.length ≤ writable then pure { b with writeIdx := b.writeIdx + data.length }
    else append { b with writeIdx := b.buf.length } extrabuf

def apply : BufferOp → Option RawBuffer
  | .append data => b.append data
  | .retrieve n => b.retrieve n
  | .retrieveAll => some b.retrieveAll
  | .readFd got => b.readFd got

/-- `readv` reads at most what it is offered space for. -/
def Possible : BufferOp → Prop
  | .readFd (some data) => ∀ n ∈ b.offered, data.length ≤ n
  | _ => True

instance (op : BufferOp) : Decidable (b.Possible op) := by
  unfold Possible
  split <;> infer_instance

/-- The sequences of operations, from a fresh buffer on. -/
def machine : TransitionSystem RawBuffer BufferOp where
  init b := ∃ init, b = fresh init
  step b op := if b.Possible op then b.apply op else none

end RawBuffer

/-! ## The operations of the structure -/

namespace Buffer

/-- Forget that the indices are in order. -/
def toRaw (b : Buffer) : RawBuffer := ⟨b.buf, b.readIdx, b.writeIdx⟩

/-- A fresh buffer of any size. -/
def fresh (init : ℕ) : Buffer where
  buf := List.replicate (kBufferPrepend + init) 0
  readIdx := kBufferPrepend
  writeIdx := kBufferPrepend
  prepend_le := Nat.le_refl _
  read_le := Nat.le_refl _
  write_le := by simp

theorem readable_fresh (init : ℕ) : (fresh init).readable = [] := by
  apply List.eq_nil_of_length_eq_zero
  rw [length_readable]
  exact Nat.sub_self _

/-- An operation of the code, on the structure. -/
def apply (b : Buffer) : BufferOp → Buffer
  | .append data => b.append data
  | .retrieve n => b.retrieve n
  | .retrieveAll => b.retrieveAll
  | .readFd none => b
  | .readFd (some data) => b.readFd data

theorem readable_apply (b : Buffer) (op : BufferOp) :
    (b.apply op).readable = op.queue b.readable := by
  cases op with
  | append data => exact readable_append
  | retrieve n => exact readable_retrieve
  | retrieveAll => exact readable_retrieveAll
  | readFd got =>
    cases got with
    | none => exact (List.append_nil _).symm
    | some data => exact readable_readFd

end Buffer

namespace RawBuffer

open Buffer

variable {b : Buffer} {data : Bytes} {n : ℕ}

@[simp] theorem readableBytes_toRaw : b.toRaw.readableBytes = some b.readableBytes :=
  if_pos b.read_le

@[simp] theorem writableBytes_toRaw : b.toRaw.writableBytes = some b.writableBytes :=
  if_pos b.write_le

theorem load_toRaw : b.toRaw.load b.readIdx b.readableBytes = some b.readable := by
  have := b.read_le
  have := b.write_le
  rw [load, if_pos (by simp only [toRaw, Buffer.readableBytes]; omega), readable,
    Buffer.readableBytes, List.drop_take]
  rfl

theorem store_toRaw {pos : ℕ} (inside : pos + data.length ≤ b.buf.length) :
    b.toRaw.store pos data = some { b.toRaw with buf := b.buf.overwrite pos data } :=
  if_pos inside

theorem peek_toRaw : b.toRaw.peek = some b.readable := by
  rw [peek, readableBytes_toRaw]
  exact load_toRaw

theorem retrieve_toRaw : b.toRaw.retrieve n = some (b.retrieve n).toRaw := by
  rw [retrieve, readableBytes_toRaw, Buffer.retrieve]
  by_cases few : n < b.readableBytes
  · rw [dif_pos few]
    exact congrArg some (if_pos few)
  · rw [dif_neg few]
    exact congrArg some (if_neg few)

theorem resize_toRaw (room : b.writableBytes < n) :
    b.toRaw.resize (b.writeIdx + n) = (b.grow n).toRaw := by
  rw [Buffer.writableBytes] at room
  have longer : b.buf.length ≤ b.writeIdx + n := by omega
  have padded : b.buf.rightpad (b.writeIdx + n) 0 =
      b.buf ++ List.replicate (b.writeIdx + n - b.buf.length) 0 := rfl
  simp only [resize, toRaw, grow, padded, List.take_of_length_le longer]

theorem makeSpace_toRaw (room : b.writableBytes < n) :
    b.toRaw.makeSpace n = some (b.makeSpace n).toRaw := by
  have prependable : b.toRaw.prependableBytes = b.prependableBytes := rfl
  simp only [makeSpace, writableBytes_toRaw, readableBytes_toRaw, prependable,
    Option.bind_eq_bind, Option.bind_some]
  rw [Buffer.makeSpace]
  by_cases little : b.writableBytes + b.prependableBytes < n + kBufferPrepend
  · rw [if_pos little, if_pos little]
    exact congrArg some (resize_toRaw room)
  -- What is readable fits in front of where it is.
  · have moved : (b.toRaw.load b.toRaw.readIdx b.readableBytes).bind
        (fun bytes => b.toRaw.store kBufferPrepend bytes) =
          some { b.toRaw with buf := b.buf.overwrite kBufferPrepend b.readable } := by
      rw [show b.toRaw.readIdx = b.readIdx from rfl, load_toRaw, Option.bind_some,
        store_toRaw b.readable_le_front]
    rw [if_neg little, if_neg little, ← Option.bind_assoc, moved, Option.bind_some,
      ← length_readable]
    rfl

theorem write_toRaw (room : data.length ≤ b.writableBytes) :
    b.toRaw.store b.toRaw.writeIdx data =
      some { (b.write data room).toRaw with writeIdx := b.writeIdx } := by
  have inside : b.writeIdx + data.length ≤ b.buf.length := by
    have := b.write_le
    rw [Buffer.writableBytes] at room
    omega
  exact store_toRaw inside

theorem ensure_toRaw : b.toRaw.ensure n = some (b.ensure n).toRaw := by
  simp only [ensure, writableBytes_toRaw, Option.bind_eq_bind, Option.bind_some]
  rw [Buffer.ensure]
  by_cases room : b.writableBytes < n
  · rw [if_pos room, if_pos room, makeSpace_toRaw room]
  · rw [if_neg room, if_neg room]
    rfl

theorem append_toRaw : b.toRaw.append data = some (b.append data).toRaw := by
  simp only [append, ensure_toRaw, Option.bind_eq_bind, Option.bind_some]
  rw [write_toRaw le_writableBytes_ensure]
  rfl

/-- A write of as many bytes as there is room for ends where the vector does. -/
theorem writeIdx_write_full (full : data.length = b.writableBytes) :
    (b.write data (Nat.le_of_eq full)).writeIdx =
      (b.write data (Nat.le_of_eq full)).buf.length := by
  have := b.write_le
  rw [Buffer.writableBytes] at full
  rw [Buffer.write, Bytes.length_overwrite (by omega)]
  dsimp only
  omega

theorem readFd_toRaw : b.toRaw.readFd (some data) = some (b.readFd data).toRaw := by
  simp only [readFd, writableBytes_toRaw, Option.bind_eq_bind, Option.bind_some]
  rw [write_toRaw (List.length_take_le ..), Option.bind_some, Buffer.readFd]
  by_cases room : data.length ≤ b.writableBytes
  · rw [dif_pos room, if_pos room]
    have all : data.take b.writableBytes = data := List.take_of_length_le room
    simp only [all]
    rfl
  -- The vector is full, and the rest is appended.
  · rw [dif_neg room, if_neg room, ← append_toRaw]
    have taken : (data.take b.writableBytes).length = b.writableBytes := by
      rw [List.length_take]
      omega
    have full := writeIdx_write_full taken
    exact congrArg (fun w => append ⟨_, b.readIdx, w⟩ (data.drop b.writableBytes)) full.symm

theorem apply_toRaw (b : Buffer) (op : BufferOp) : b.toRaw.apply op = some (b.apply op).toRaw := by
  cases op with
  | append data => exact append_toRaw
  | retrieve n => exact retrieve_toRaw
  | retrieveAll => rfl
  | readFd got =>
    cases got with
    | none => rfl
    | some data => exact readFd_toRaw

/-! ## All sequences of operations -/

/-- What a sequence of steps makes of an empty queue. -/
def queueAfter (h : List (TransitionSystem.Step RawBuffer BufferOp)) : Bytes :=
  (h.reverse.map (·.input)).foldl BufferOp.queue []

theorem queueAfter_cons (t : TransitionSystem.Step RawBuffer BufferOp)
    (h : List (TransitionSystem.Step RawBuffer BufferOp)) :
    queueAfter (t :: h) = t.input.queue (queueAfter h) := by
  rw [queueAfter, List.reverse_cons, List.map_append, List.foldl_append, ← queueAfter]
  rfl

/-- Every state reached is that of a structure whose readable bytes are the queue. -/
theorem exists_toRaw {h : List (TransitionSystem.Step RawBuffer BufferOp)} {r : RawBuffer}
    (run : machine.Run h r) : ∃ b : Buffer, r = b.toRaw ∧ b.readable = queueAfter h := by
  induction run with
  | start first =>
    obtain ⟨init, rfl⟩ := first
    exact ⟨Buffer.fresh init, rfl, readable_fresh init⟩
  | @next h r r' op _ step ih =>
    obtain ⟨b, rfl, queue⟩ := ih
    simp only [machine, apply_toRaw, Option.ite_none_right_eq_some, Option.some.injEq] at step
    obtain ⟨-, rfl⟩ := step
    refine ⟨b.apply op, rfl, ?_⟩
    rw [queueAfter_cons, readable_apply, queue]

/-- In every state that a sequence of operations leads to, the indices are in order and inside the
vector, the readable bytes are in the vector and are the queue, and no operation fails. -/
theorem refines_queue {h : List (TransitionSystem.Step RawBuffer BufferOp)} {r : RawBuffer}
    (run : machine.Run h r) :
    (kBufferPrepend ≤ r.readIdx ∧ r.readIdx ≤ r.writeIdx ∧ r.writeIdx ≤ r.buf.length) ∧
      r.peek = some (queueAfter h) ∧ ∀ op, ∃ r', r.apply op = some r' := by
  obtain ⟨b, rfl, queue⟩ := exists_toRaw run
  refine ⟨⟨b.prepend_le, b.read_le, b.write_le⟩, ?_, fun op => ⟨_, apply_toRaw b op⟩⟩
  rw [peek_toRaw, queue]

/-- A buffer of four bytes: six are appended, for which it grows, and five are taken. For three more
the one that is left moves to the front. -/
theorem refines_queue_small :
    (⟨[0, 0, 0, 0, 0, 0, 0, 0, 6, 7, 8, 9, 5, 6], 8, 12⟩ : RawBuffer).peek =
      some [6, 7, 8, 9] := by
  have grown : machine.step (fresh 4) (.append [1, 2, 3, 4, 5, 6]) =
      some ⟨[0, 0, 0, 0, 0, 0, 0, 0, 1, 2, 3, 4, 5, 6], 8, 14⟩ := by decide
  have taken : machine.step ⟨[0, 0, 0, 0, 0, 0, 0, 0, 1, 2, 3, 4, 5, 6], 8, 14⟩ (.retrieve 5) =
      some ⟨[0, 0, 0, 0, 0, 0, 0, 0, 1, 2, 3, 4, 5, 6], 13, 14⟩ := by decide
  have moved : machine.step ⟨[0, 0, 0, 0, 0, 0, 0, 0, 1, 2, 3, 4, 5, 6], 13, 14⟩
      (.readFd (some [7, 8, 9])) = some ⟨[0, 0, 0, 0, 0, 0, 0, 0, 6, 7, 8, 9, 5, 6], 8, 12⟩ := by
    decide
  have start : machine.Run [] (fresh 4) := .start ⟨4, rfl⟩
  exact (refines_queue (((start.next grown).next taken).next moved)).2.1

end RawBuffer

end Perfacet
