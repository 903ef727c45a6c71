import Mathlib.Data.List.Basic
import Mathlib.Data.Nat.ModEq

/-!
# Bytes, little-endian words and FIFO byte streams

A stream socket carries an unframed sequence of bytes in each direction.  What a
reader sees of it depends on how the writer's sends and the reader's receives are
cut, and the point of this file is a representation in which the cuts do not
matter: a `ByteStream` keeps every byte ever accepted for sending, together with
how many of them have been delivered.  Reliability and order are then built in.
The reader's view is `delivered`, a prefix of `sent` by definition, a send
extends `sent` without touching `delivered`, and a receive extends `delivered`
without touching `sent`.
-/

namespace Ros1Tools.Lib

/-- A sequence of octets. -/
abbrev Bytes := List UInt8

namespace Bytes

/-- The text a byte string is, one character a byte. -/
def toText (bs : Bytes) : String := String.ofList (bs.map fun b => Char.ofNat b.toNat)

/-- The byte string of a text with one character a byte. -/
def ofText (text : String) : Bytes := text.toList.map fun c => UInt8.ofNat c.toNat

/-- Nothing is lost of a text with one character a byte. -/
theorem toText_ofText {text : String} (h : ∀ c ∈ text.toList, c.toNat < 256) :
    toText (ofText text) = text := by
  have hmap : (ofText text).map (fun b => Char.ofNat b.toNat) = text.toList := by
    rw [ofText, List.map_map]
    refine (List.map_congr_left fun c hc => ?_).trans (List.map_id _)
    rw [Function.comp_apply, UInt8.toNat_ofNat_of_lt' (h c hc), Char.ofNat_toNat, id]
  rw [toText, hmap, String.ofList_toList]

/-! ## Little-endian words -/

/-- The `w` low-order bytes of `n`, least significant first. -/
def ofNat : Nat → Nat → Bytes
  | 0, _ => []
  | w + 1, n => UInt8.ofNat n :: ofNat w (n / 256)

/-- The number a little-endian byte string denotes. -/
def toNat : Bytes → Nat
  | [] => 0
  | b :: bs => b.toNat + 256 * toNat bs

@[simp] theorem length_ofNat (w n : Nat) : (ofNat w n).length = w := by
  induction w generalizing n with
  | zero => rfl
  | succ w ih => simp [ofNat, ih]

/-- Reading a word back keeps its value modulo the word size. -/
theorem toNat_ofNat (w n : Nat) : toNat (ofNat w n) = n % 256 ^ w := by
  induction w generalizing n with
  | zero => simp [ofNat, toNat, Nat.mod_one]
  | succ w ih =>
      have hb : (UInt8.ofNat n).toNat = n % 256 := UInt8.toNat_ofNat'
      rw [ofNat, toNat, ih, hb, Nat.pow_succ, Nat.mul_comm (256 ^ w) 256, Nat.mod_mul]

/-- Reads a little-endian word of `w` bytes off the front. -/
def word (w : Nat) (bs : Bytes) : Nat × Bytes := (toNat (bs.take w), bs.drop w)

/-- A word is read off the front of a byte string that starts with its bytes. -/
theorem word_append {w n : Nat} (h : n < 256 ^ w) (rest : Bytes) :
    word w (ofNat w n ++ rest) = (n, rest) := by
  rw [word, List.take_left' (length_ofNat w n), List.drop_left' (length_ofNat w n),
    toNat_ofNat, Nat.mod_eq_of_lt h]

/-- Two prefixes of one list with equal first parts of one length agree there. -/
theorem eq_of_append_prefix {a b x y whole : Bytes} (hlen : a.length = b.length)
    (ha : a ++ x <+: whole) (hb : b ++ y = whole) : a = b ∧ x <+: y := by
  obtain ⟨z, hz⟩ := ha
  rw [List.append_assoc, ← hb] at hz
  obtain ⟨hab, hxy⟩ := List.append_inj hz hlen
  exact ⟨hab, z, hxy⟩

end Bytes

/-! ## Streams -/

/-- One direction of a reliable byte stream: every byte accepted so far and how
many of them the reader has taken. -/
structure ByteStream where
  /-- Every byte the writer's end has accepted, oldest first. -/
  sent : Bytes
  /-- How many of them the reader has received. -/
  taken : Nat
  /-- Nothing is received before it is sent. -/
  taken_le : taken ≤ sent.length

namespace ByteStream

/-- A stream nothing has been written to. -/
def empty : ByteStream := ⟨[], 0, Nat.le_refl 0⟩

/-- The bytes the reader has received, in the order it received them. -/
def delivered (c : ByteStream) : Bytes := c.sent.take c.taken

/-- The bytes in flight. -/
def pending (c : ByteStream) : Bytes := c.sent.drop c.taken

/-- The writer's end accepts `bs`. -/
def push (c : ByteStream) (bs : Bytes) : ByteStream :=
  ⟨c.sent ++ bs, c.taken, by rw [List.length_append]; exact Nat.le_add_right_of_le c.taken_le⟩

/-- The bytes a receive of at most `n` bytes returns. -/
def chunk (c : ByteStream) (n : Nat) : Bytes := c.pending.take n

/-- The stream after a receive of at most `n` bytes. -/
def pull (c : ByteStream) (n : Nat) : ByteStream :=
  ⟨c.sent, c.taken + (c.chunk n).length, by
    have := c.taken_le
    rw [chunk, pending, List.length_take, List.length_drop]
    omega⟩

@[simp] theorem sent_empty : empty.sent = [] := rfl

@[simp] theorem delivered_empty : empty.delivered = [] := rfl

@[simp] theorem sent_push (c : ByteStream) (bs : Bytes) : (c.push bs).sent = c.sent ++ bs := rfl

@[simp] theorem sent_pull (c : ByteStream) (n : Nat) : (c.pull n).sent = c.sent := rfl

/-- A send does not change what the reader has received. -/
@[simp] theorem delivered_push (c : ByteStream) (bs : Bytes) :
    (c.push bs).delivered = c.delivered := List.take_append_of_le_length c.taken_le

/-- A receive appends the chunk it returns to what the reader has received. -/
@[simp] theorem delivered_pull (c : ByteStream) (n : Nat) :
    (c.pull n).delivered = c.delivered ++ c.chunk n := by
  unfold delivered pull chunk pending
  simp only [List.length_take, List.length_drop, List.take_add]
  congr 1
  rw [List.take_eq_take_iff, List.length_drop]
  omega

/-- What has been received is a prefix of what has been sent. -/
theorem delivered_prefix (c : ByteStream) : c.delivered <+: c.sent := List.take_prefix _ _

/-- A receive returns at most what was asked for. -/
theorem length_chunk_le (c : ByteStream) (n : Nat) : (c.chunk n).length ≤ n :=
  List.length_take_le n _

end ByteStream

end Ros1Tools.Lib
