import Mathlib.Data.Nat.Notation
import Mathlib.Data.Fin.Basic
import Mathlib.Data.List.OfFn

/-!
# Buffers

The size of a page and the two kinds of buffer. A `GPUMemBuffer` is a base pointer
and a size; its bytes belong to the device. A `MemBuffer` is one heap page of
`cpuBufferBaseSize` bytes that both the program and the network card read and write, so it is
split in two here: the handle, which the program holds, and the `Page` of bytes behind it, which
is part of the environment's state.

## Main definitions

* `Page.slice` — the first bytes of a page, `&buffer[0..n]`
* `Page.write` — `serialize_into` at the start of a page; bytes past its end are not written
* `Page.place` — a segment of one page landing on another
-/

namespace RdmaTransport

/-- `CPU_BUFFER_BASE_SIZE`, 4 KiB. -/
def cpuBufferBaseSize : ℕ := 4096

/-- A range of GPU memory. -/
structure GPUMemBuffer where
  /-- Where the range starts. -/
  basePtr : UInt64
  /-- How many bytes it has. -/
  size : ℕ
  deriving DecidableEq, Repr

/-- The heap page behind a `MemBuffer`, by its address. Its bytes are a `Page`. -/
structure MemBuffer where
  /-- The address of the first byte. -/
  ptr : UInt64
  deriving DecidableEq, Repr

/-- `MemBuffer::get_size`: the array behind every `MemBuffer` has `CPU_BUFFER_BASE_SIZE` bytes. -/
def MemBuffer.getSize (_ : MemBuffer) : ℕ := cpuBufferBaseSize

/-- The range lies in the page behind the buffer. -/
def MemBuffer.Contains (buf : MemBuffer) (addr : UInt64) (length : ℕ) : Prop :=
  buf.ptr.toNat ≤ addr.toNat ∧ addr.toNat + length ≤ buf.ptr.toNat + buf.getSize

instance (buf : MemBuffer) (addr : UInt64) (length : ℕ) : Decidable (buf.Contains addr length) :=
  inferInstanceAs (Decidable (_ ∧ _))

/-- The bytes of a `MemBuffer`. -/
abbrev Page := Fin cpuBufferBaseSize → UInt8

namespace Page

variable {p q : Page} {n m : ℕ}

/-- The page `MemBuffer::new` allocates. -/
def zero : Page := fun _ => 0

/-- `&buffer[0..n]`. The bound is what the slice expression checks. -/
def slice (p : Page) (n : ℕ) (h : n ≤ cpuBufferBaseSize) : List UInt8 :=
  List.ofFn fun i : Fin n => p (i.castLE h)

/-- The page after `bs` has been written from its start. -/
def write (p : Page) (bs : List UInt8) : Page := fun i => bs.getD i (p i)

/-- The page after the bytes `[a, a + n)` of `src` have landed on it. -/
def place (p src : Page) (a n : ℕ) : Page := fun i => if a ≤ i ∧ i < a + n then src i else p i

/-- The page starts with the bytes `bs`. -/
def StartsWith (p : Page) (bs : List UInt8) : Prop :=
  ∃ h : bs.length ≤ cpuBufferBaseSize, p.slice bs.length h = bs

@[simp] theorem length_slice (p : Page) (h : n ≤ cpuBufferBaseSize) : (p.slice n h).length = n := by
  simp [slice]

theorem startsWith_write (p : Page) {bs : List UInt8} (h : bs.length ≤ cpuBufferBaseSize) :
    (p.write bs).StartsWith bs := by
  refine ⟨h, List.ext_getElem (by simp) ?_⟩
  intro i h₁ h₂
  simp [slice, write]

theorem StartsWith.congr {bs : List UInt8} (hp : p.StartsWith bs) (hpq : ∀ i, p i = q i) :
    q.StartsWith bs := by
  rwa [show q = p from funext fun i => (hpq i).symm]

@[simp] theorem place_apply_of_mem {src : Page} {a : ℕ} {i : Fin cpuBufferBaseSize}
    (h : a ≤ i ∧ i < a + n) : p.place src a n i = src i := if_pos h

@[simp] theorem place_apply_of_not_mem {src : Page} {a : ℕ} {i : Fin cpuBufferBaseSize}
    (h : ¬ (a ≤ i ∧ i < a + n)) : p.place src a n i = p i := if_neg h

/-- Placing the next segment extends the part of the page that already agrees with the source. -/
theorem place_agree {src : Page} {a : ℕ} (h : ∀ i : Fin cpuBufferBaseSize, i < a → p i = src i)
    (i : Fin cpuBufferBaseSize) (hi : i < a + n) : p.place src a n i = src i := by
  by_cases hm : a ≤ i ∧ i < a + n
  · exact place_apply_of_mem hm
  · rw [place_apply_of_not_mem hm]
    exact h i (by omega)

end Page

end RdmaTransport
