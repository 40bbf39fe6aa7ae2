import Mathlib.Data.List.Basic

/-!
# The buffer of a connection

`netlib::Buffer` keeps its bytes in one vector: those before `readIdx` are read, those from
`writeIdx` on are free, and what is readable lies between. Room is made by growing the vector
or by moving what is readable to the front. For a reader it is a queue of bytes: what arrives
is appended, and what is retrieved goes from the front.

## Main results

* `Buffer.readable_retrieve` — retrieving drops bytes from the front
* `Buffer.readable_append`, `Buffer.readable_readFd` — what arrives comes last, whether or not
  room had to be made for it
-/

namespace Perfacet

abbrev Bytes := List UInt8

def kBufferPrepend : ℕ := 8

def kBufferInit : ℕ := 1024

structure Buffer where
  buf : Bytes
  readIdx : ℕ
  writeIdx : ℕ
  prepend_le : kBufferPrepend ≤ readIdx
  read_le : readIdx ≤ writeIdx
  write_le : writeIdx ≤ buf.length

/-- `memcpy` to a position. -/
def Bytes.overwrite (buf : Bytes) (pos : ℕ) (data : Bytes) : Bytes :=
  buf.take pos ++ data ++ buf.drop (pos + data.length)

theorem Bytes.length_overwrite {buf data : Bytes} {pos : ℕ}
    (room : pos + data.length ≤ buf.length) : (buf.overwrite pos data).length = buf.length := by
  simp only [overwrite, List.length_append, List.length_take, List.length_drop]
  omega

/-- What lies between two positions once something was written at the second. -/
theorem Bytes.drop_take_overwrite {buf data : Bytes} {start pos : ℕ} (le : start ≤ pos)
    (inside : pos ≤ buf.length) :
    ((buf.overwrite pos data).take (pos + data.length)).drop start =
      (buf.take pos).drop start ++ data := by
  have written : (buf.take pos ++ data).length = pos + data.length := by simp [inside]
  have before : start ≤ (buf.take pos).length := by simp [inside, le]
  rw [overwrite, ← written, List.take_left, List.drop_append_of_le_length before]

namespace Buffer

variable {b : Buffer} {data : Bytes} {n : ℕ}

def empty : Buffer where
  buf := List.replicate (kBufferPrepend + kBufferInit) 0
  readIdx := kBufferPrepend
  writeIdx := kBufferPrepend
  prepend_le := Nat.le_refl _
  read_le := Nat.le_refl _
  write_le := by simp

def readableBytes (b : Buffer) : ℕ := b.writeIdx - b.readIdx

def writableBytes (b : Buffer) : ℕ := b.buf.length - b.writeIdx

def prependableBytes (b : Buffer) : ℕ := b.readIdx

/-- The readable bytes, from `peek()` on. -/
def readable (b : Buffer) : Bytes := (b.buf.take b.writeIdx).drop b.readIdx

@[simp] theorem length_readable : b.readable.length = b.readableBytes := by
  have := b.write_le
  simp only [readable, readableBytes, List.length_drop, List.length_take]
  omega

@[simp] theorem readable_empty : empty.readable = [] := by
  apply List.eq_nil_of_length_eq_zero
  rw [length_readable]
  rfl

/-! ## Retrieving -/

def retrieveAll (b : Buffer) : Buffer where
  buf := b.buf
  readIdx := kBufferPrepend
  writeIdx := kBufferPrepend
  prepend_le := Nat.le_refl _
  read_le := Nat.le_refl _
  write_le := Nat.le_trans b.prepend_le (Nat.le_trans b.read_le b.write_le)

def retrieve (b : Buffer) (n : ℕ) : Buffer :=
  if h : n < b.readableBytes then
    { b with
      readIdx := b.readIdx + n
      prepend_le := Nat.le_trans b.prepend_le (Nat.le_add_right ..)
      read_le := by rw [readableBytes] at h; omega }
  else b.retrieveAll

@[simp] theorem readable_retrieveAll : b.retrieveAll.readable = [] := by
  apply List.eq_nil_of_length_eq_zero
  rw [length_readable]
  exact Nat.sub_self _

/-- Retrieving drops bytes from the front. -/
@[simp] theorem readable_retrieve : (b.retrieve n).readable = b.readable.drop n := by
  rw [retrieve]
  split
  · rw [readable, readable, List.drop_drop]
  · next h =>
    rw [readable_retrieveAll, eq_comm, List.drop_eq_nil_iff, length_readable]
    exact Nat.le_of_not_lt h

/-! ## Appending -/

/-- `resize`, for `len` more bytes. -/
def grow (b : Buffer) (len : ℕ) : Buffer :=
  { b with
    buf := b.buf.rightpad (b.writeIdx + len) 0
    write_le := by rw [List.length_rightpad]; omega }

theorem readable_le_front (b : Buffer) : kBufferPrepend + b.readable.length ≤ b.buf.length := by
  have := b.prepend_le
  have := b.read_le
  have := b.write_le
  rw [length_readable, readableBytes]
  omega

/-- `memmove`: what is readable moves to the front. -/
def moveToFront (b : Buffer) : Buffer where
  buf := b.buf.overwrite kBufferPrepend b.readable
  readIdx := kBufferPrepend
  writeIdx := kBufferPrepend + b.readable.length
  prepend_le := Nat.le_refl _
  read_le := Nat.le_add_right ..
  write_le := by rw [Bytes.length_overwrite b.readable_le_front]; exact b.readable_le_front

def makeSpace (b : Buffer) (len : ℕ) : Buffer :=
  if b.writableBytes + b.prependableBytes < len + kBufferPrepend then b.grow len
  else b.moveToFront

theorem readable_grow : (b.grow n).readable = b.readable := by
  simp only [readable, grow, List.rightpad]
  rw [List.take_append_of_le_length b.write_le]

theorem readable_moveToFront : b.moveToFront.readable = b.readable := by
  have inside : kBufferPrepend ≤ b.buf.length :=
    Nat.le_trans (Nat.le_add_right ..) b.readable_le_front
  calc b.moveToFront.readable
      = (b.buf.take kBufferPrepend).drop kBufferPrepend ++ b.readable :=
        Bytes.drop_take_overwrite (Nat.le_refl _) inside
    _ = b.readable := by simp

/-- There is room after `makeSpace`. -/
theorem le_writableBytes_makeSpace : n ≤ (b.makeSpace n).writableBytes := by
  rw [makeSpace]
  split
  · simp only [grow, writableBytes, List.length_rightpad]
    omega
  · next room =>
    have := b.read_le
    have := b.write_le
    simp only [writableBytes, prependableBytes] at room
    simp only [moveToFront, writableBytes, Bytes.length_overwrite b.readable_le_front,
      length_readable, readableBytes]
    omega

/-- Room for `len` bytes. -/
def ensure (b : Buffer) (len : ℕ) : Buffer :=
  if b.writableBytes < len then b.makeSpace len else b

theorem le_writableBytes_ensure : n ≤ (b.ensure n).writableBytes := by
  rw [ensure]
  split
  · exact le_writableBytes_makeSpace
  · next room => exact Nat.le_of_not_lt room

theorem readable_makeSpace : (b.makeSpace n).readable = b.readable := by
  rw [makeSpace]
  split
  · exact readable_grow
  · exact readable_moveToFront

theorem readable_ensure : (b.ensure n).readable = b.readable := by
  rw [ensure]
  split
  · exact readable_makeSpace
  · rfl

/-- What arrives is copied to where it fits. -/
def write (b : Buffer) (data : Bytes) (room : data.length ≤ b.writableBytes) : Buffer where
  buf := b.buf.overwrite b.writeIdx data
  readIdx := b.readIdx
  writeIdx := b.writeIdx + data.length
  prepend_le := b.prepend_le
  read_le := Nat.le_trans b.read_le (Nat.le_add_right ..)
  write_le := by
    have := b.write_le
    rw [writableBytes] at room
    rw [Bytes.length_overwrite] <;> omega

theorem readable_write {room : data.length ≤ b.writableBytes} :
    (b.write data room).readable = b.readable ++ data :=
  Bytes.drop_take_overwrite b.read_le b.write_le

def append (b : Buffer) (data : Bytes) : Buffer :=
  (b.ensure data.length).write data le_writableBytes_ensure

/-- What is appended comes last. -/
@[simp] theorem readable_append : (b.append data).readable = b.readable ++ data := by
  rw [append, readable_write, readable_ensure]

/-- `readFd`: the bytes that there is no room for are read to the stack and appended. -/
def readFd (b : Buffer) (data : Bytes) : Buffer :=
  if room : data.length ≤ b.writableBytes then b.write data room
  else
    let full := b.write (data.take b.writableBytes) (List.length_take_le ..)
    full.append (data.drop b.writableBytes)

@[simp] theorem readable_readFd : (b.readFd data).readable = b.readable ++ data := by
  rw [readFd]
  split
  · exact readable_write
  · rw [readable_append, readable_write, List.append_assoc, List.take_append_drop]

end Buffer

end Perfacet
