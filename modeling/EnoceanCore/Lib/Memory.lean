import EnoceanCore.Lib.Traced
import Mathlib.Data.List.GetD

/-!
# Byte views with recorded accesses

A `Span` is a view of `size` bytes of a memory region, as `std::span` is: taking a byte or
a part of it checks nothing, and an index past the end reads whatever the region holds
there. Every access is recorded instead, so that "no access is out of bounds" is a
property of the log (`Access.InBounds`, relative to the view; `Access.Inside`, relative
to an outer extent).

A `Buffer` is a local array of fixed length; copying into it is recorded the same way.
-/

namespace Lib

/-- Where a view starts in its region and how many bytes it has. -/
structure Extent where
  off : Nat
  size : Nat
  deriving DecidableEq, Repr

/-- An access to the bytes of a view. -/
inductive Access where
  /-- One byte of the view. -/
  | read (view : Extent) (index : Nat)
  /-- The `count` bytes of the view from `offset` on, as a subview or in a copy. -/
  | slice (view : Extent) (offset count : Nat)
  deriving DecidableEq, Repr

/-- The view an access goes through. -/
def Access.view : Access → Extent
  | .read view _ => view
  | .slice view _ _ => view

/-- The access stays within the view it goes through. -/
def Access.InBounds : Access → Prop
  | .read view index => index < view.size
  | .slice view offset count => offset + count ≤ view.size

/-- The access stays within the extent `outer` of the region. -/
def Access.Inside (outer : Extent) : Access → Prop
  | .read view index => outer.off ≤ view.off + index ∧ view.off + index < outer.off + outer.size
  | .slice view offset count =>
      outer.off ≤ view.off + offset ∧ view.off + offset + count ≤ outer.off + outer.size

instance : DecidablePred Access.InBounds
  | .read view index => inferInstanceAs (Decidable (index < view.size))
  | .slice view offset count => inferInstanceAs (Decidable (offset + count ≤ view.size))

/-- The view lies within the extent `outer`. -/
def Extent.Within (view outer : Extent) : Prop :=
  outer.off ≤ view.off ∧ view.off + view.size ≤ outer.off + outer.size

theorem Extent.Within.refl (view : Extent) : view.Within view := ⟨Nat.le_refl _, Nat.le_refl _⟩

theorem Access.InBounds.inside {a : Access} {outer : Extent} (h : a.InBounds)
    (hview : a.view.Within outer) : a.Inside outer := by
  obtain ⟨hlo, hhi⟩ := hview
  cases a with
  | read view index =>
    simp only [Access.InBounds, Access.view, Access.Inside] at *
    omega
  | slice view offset count =>
    simp only [Access.InBounds, Access.view, Access.Inside] at *
    omega

theorem Access.Inside.mono {a : Access} {inner outer : Extent} (h : a.Inside inner)
    (hwithin : inner.Within outer) : a.Inside outer := by
  obtain ⟨hlo, hhi⟩ := hwithin
  cases a with
  | read view index =>
    simp only [Access.Inside] at *
    omega
  | slice view offset count =>
    simp only [Access.Inside] at *
    omega

/-- Action types that have a place for accesses. -/
class HasAccess (ε : Type) where
  access : Access → ε

/-- A view of `size` bytes of the region `mem`, starting at `off`. -/
structure Span where
  mem : Nat → UInt8
  off : Nat
  size : Nat

namespace Span

/-- The default-constructed view. -/
def empty : Span := ⟨fun _ => 0, 0, 0⟩

/-- A view of a whole region that holds these bytes. -/
def ofList (bytes : List UInt8) : Span := ⟨fun i => bytes.getD i 0, 0, bytes.length⟩

def extent (s : Span) : Extent := ⟨s.off, s.size⟩

/-- The byte at an index, whether or not the view reaches that far. -/
def byte (s : Span) (i : Nat) : UInt8 := s.mem (s.off + i)

/-- The `count` bytes from `offset` on, unchecked. -/
def slice (s : Span) (offset count : Nat) : Span := ⟨s.mem, s.off + offset, count⟩

/-- The bytes of the view. -/
def bytes (s : Span) : List UInt8 := (List.range s.size).map s.byte

theorem size_ofList (bytes : List UInt8) : (ofList bytes).size = bytes.length := rfl

@[simp] theorem extent_size (s : Span) : s.extent.size = s.size := rfl

@[simp] theorem extent_off (s : Span) : s.extent.off = s.off := rfl

@[simp] theorem size_slice (s : Span) (o n : Nat) : (s.slice o n).size = n := rfl

@[simp] theorem off_slice (s : Span) (o n : Nat) : (s.slice o n).off = s.off + o := rfl

theorem mem_slice (s : Span) (o n : Nat) : (s.slice o n).mem = s.mem := rfl

@[simp] theorem byte_slice (s : Span) (o n i : Nat) : (s.slice o n).byte i = s.byte (o + i) := by
  simp [slice, Span.byte, Nat.add_assoc]

theorem within_slice {s : Span} {outer : Extent} {o n : Nat} (h : s.extent.Within outer)
    (hfit : o + n ≤ s.size) : (s.slice o n).extent.Within outer := by
  obtain ⟨hlo, hhi⟩ := h
  simp only [Extent.Within, extent_off, extent_size, off_slice, size_slice] at *
  omega

theorem slice_slice (s : Span) (o n p m : Nat) : (s.slice o n).slice p m = s.slice (o + p) m := by
  simp [slice, Nat.add_assoc]

@[simp] theorem length_bytes (s : Span) : s.bytes.length = s.size := by
  simp [bytes]

theorem getElem_bytes (s : Span) (i : Nat) (h : i < s.bytes.length) : s.bytes[i] = s.byte i := by
  simp [bytes]

theorem bytes_slice (s : Span) {o n : Nat} (h : o + n ≤ s.size) :
    (s.slice o n).bytes = (s.bytes.drop o).take n := by
  apply List.ext_getElem
  · simp
    omega
  · intro i h1 h2
    simp [getElem_bytes]

theorem bytes_slice_succ (s : Span) (o n : Nat) :
    (s.slice o (n + 1)).bytes = s.byte o :: (s.slice (o + 1) n).bytes := by
  simp only [bytes, size_slice, List.range_succ_eq_map, List.map_cons, List.map_map, byte_slice,
    Nat.add_zero]
  congr 1
  apply List.map_congr_left
  intro i _
  simp only [Function.comp_apply, byte_slice]
  congr 1
  omega

/-- A byte behind an offset, in the list of bytes from there on. -/
theorem getD_drop_bytes (s : Span) {o i : Nat} (h : o + i < s.size) :
    (s.bytes.drop o).getD i 0 = s.byte (o + i) := by
  have hlen : i < (s.bytes.drop o).length := by
    rw [List.length_drop, length_bytes]
    omega
  rw [List.getD_eq_getElem _ _ hlen, List.getElem_drop, getElem_bytes]

theorem byte_ofList (bytes : List UInt8) (i : Nat) : (ofList bytes).byte i = bytes.getD i 0 := by
  rw [Span.byte, ofList, Nat.zero_add]

theorem bytes_ofList (bytes : List UInt8) : (ofList bytes).bytes = bytes := by
  apply List.ext_getElem
  · rw [length_bytes]
    rfl
  · intro i hi hi'
    rw [getElem_bytes, byte_ofList, List.getD_eq_getElem _ _ hi']

/-- Two views with the same bytes agree at every index in range. -/
theorem byte_eq_of_bytes_eq {s t : Span} (h : s.bytes = t.bytes) {i : Nat} (hi : i < s.size) :
    s.byte i = t.byte i := by
  have hlen : s.size = t.size := by
    rw [← length_bytes s, h, length_bytes]
  rw [← getElem_bytes s i (by simpa using hi), ← getElem_bytes t i (by simpa [← hlen] using hi)]
  simp only [h]

/-! ### Views of a concatenation -/

section Append

variable {s : Span} {a b c : List UInt8} {x : UInt8}

theorem size_of_bytes (h : s.bytes = a) : s.size = a.length := by
  rw [← h, length_bytes]

theorem byte_of_append (h : s.bytes = a ++ x :: c) : s.byte a.length = x := by
  have hsize := size_of_bytes h
  rw [← getElem_bytes s a.length (by simp [hsize])]
  simp [h]

theorem bytes_slice_of_append (h : s.bytes = a ++ (b ++ c)) :
    (s.slice a.length b.length).bytes = b := by
  have hsize := size_of_bytes h
  rw [bytes_slice s (by simp [hsize]), h]
  simp

end Append

variable {ε : Type} [HasAccess ε]

/-- Read one byte. -/
def get (s : Span) (i : Nat) : Traced ε UInt8 := do
  Traced.emit (HasAccess.access (.read s.extent i))
  return s.byte i

/-- Take a part of the view. -/
def subspan (s : Span) (offset count : Nat) : Traced ε Span := do
  Traced.emit (HasAccess.access (.slice s.extent offset count))
  return s.slice offset count

@[simp] theorem val_get (s : Span) (i : Nat) : (s.get i : Traced ε UInt8).val = s.byte i := (rfl)

@[simp] theorem log_get (s : Span) (i : Nat) :
    (s.get i : Traced ε UInt8).log = [HasAccess.access (.read s.extent i)] := rfl

@[simp] theorem val_subspan (s : Span) (o n : Nat) :
    (s.subspan o n : Traced ε Span).val = s.slice o n := (rfl)

@[simp] theorem log_subspan (s : Span) (o n : Nat) :
    (s.subspan o n : Traced ε Span).log = [HasAccess.access (.slice s.extent o n)] := rfl

@[simp] theorem every_get (P : ε → Prop) (s : Span) (i : Nat) :
    Traced.Every P (s.get i) ↔ P (HasAccess.access (.read s.extent i)) := by
  simp [Traced.Every]

@[simp] theorem every_subspan (P : ε → Prop) (s : Span) (o n : Nat) :
    Traced.Every P (s.subspan o n) ↔ P (HasAccess.access (.slice s.extent o n)) := by
  simp [Traced.Every]

variable {δ : Type}

@[simp] theorem proj_get (f : ε → Option δ) (s : Span) (i : Nat) :
    Traced.proj f (s.get i) = (f (HasAccess.access (.read s.extent i))).toList :=
  Traced.proj_emit f _

@[simp] theorem proj_subspan (f : ε → Option δ) (s : Span) (o n : Nat) :
    Traced.proj f (s.subspan o n) = (f (HasAccess.access (.slice s.extent o n))).toList :=
  Traced.proj_emit f _

end Span

/-! ## Local buffers -/

/-- A local array of `n` bytes. -/
abbrev Buffer (n : Nat) : Type := Vector UInt8 n

namespace Buffer

variable {ε : Type} [HasAccess ε] {n : Nat}

/-- The array with every byte zero. -/
def zero (n : Nat) : Buffer n := Vector.replicate n 0

/-- The array with `src` written from `offset` on; what does not fit is lost. -/
def overwrite (b : Buffer n) (offset : Nat) (src : List UInt8) : Buffer n :=
  Vector.ofFn fun i =>
    if offset ≤ i.val ∧ i.val < offset + src.length then src.getD (i.val - offset) 0 else b[i]

/-- Copy `src` to the array from `offset` on. -/
def copyTo (b : Buffer n) (offset : Nat) (src : List UInt8) : Traced ε (Buffer n) := do
  Traced.emit (HasAccess.access (.slice ⟨0, n⟩ offset src.length))
  return b.overwrite offset src

@[simp] theorem val_copyTo (b : Buffer n) (o : Nat) (src : List UInt8) :
    (b.copyTo o src : Traced ε (Buffer n)).val = b.overwrite o src := (rfl)

@[simp] theorem log_copyTo (b : Buffer n) (o : Nat) (src : List UInt8) :
    (b.copyTo o src : Traced ε (Buffer n)).log =
      [HasAccess.access (.slice ⟨0, n⟩ o src.length)] := rfl

@[simp] theorem proj_copyTo {δ : Type} (f : ε → Option δ) (b : Buffer n) (o : Nat)
    (src : List UInt8) : Traced.proj f (b.copyTo o src) =
      (f (HasAccess.access (.slice ⟨0, n⟩ o src.length))).toList :=
  Traced.proj_emit f _

theorem every_copyTo (P : ε → Prop) (b : Buffer n) (o : Nat) (src : List UInt8) :
    Traced.Every P (b.copyTo o src) ↔
      P (HasAccess.access (.slice ⟨0, n⟩ o src.length)) := by
  simp [Traced.Every]

/-- A copy that fits leaves the bytes before it, then the source, then the bytes after it. -/
theorem toList_overwrite (b : Buffer n) {o : Nat} {src : List UInt8} (h : o + src.length ≤ n) :
    (b.overwrite o src).toList =
      b.toList.take o ++ src ++ b.toList.drop (o + src.length) := by
  apply List.ext_getElem
  · simp
    omega
  · intro i h1 h2
    have hi : i < n := by simpa using h1
    simp only [overwrite, Vector.getElem_toList, Vector.getElem_ofFn]
    simp only [List.getElem_append, List.length_append, List.length_take, Vector.length_toList,
      List.getElem_take, List.getElem_drop, Vector.getElem_toList, Fin.getElem_fin]
    by_cases hlo : i < o
    · rw [if_neg (by omega), dif_pos (by omega), dif_pos (by omega)]
    · by_cases hhi : i < o + src.length
      · have hidx : i - min o n = i - o := by omega
        rw [if_pos (by omega), dif_pos (by omega), dif_neg (by omega),
          List.getD_eq_getElem _ _ (by omega)]
        simp only [hidx]
      · have hidx : o + src.length + (i - (min o n + src.length)) = i := by omega
        rw [if_neg (by omega), dif_neg (by omega)]
        simp only [hidx]

/-- A copy to the front leaves the source in front. -/
theorem toList_overwrite_zero (b : Buffer n) {src : List UInt8} (h : src.length ≤ n) :
    (b.overwrite 0 src).toList = src ++ b.toList.drop src.length := by
  rw [toList_overwrite b (by omega), List.take_zero, List.nil_append, Nat.zero_add]

/-- A copy leaves what is in front of it. -/
theorem take_overwrite (b : Buffer n) {o : Nat} {src : List UInt8} (h : o + src.length ≤ n) :
    (b.overwrite o src).toList.take o = b.toList.take o := by
  rw [toList_overwrite b h, List.append_assoc]
  apply List.take_left'
  simp
  omega

/-- Behind what was in front of it stands the source. -/
theorem take_overwrite_add (b : Buffer n) {o : Nat} {src : List UInt8} (h : o + src.length ≤ n) :
    (b.overwrite o src).toList.take (o + src.length) = b.toList.take o ++ src := by
  rw [toList_overwrite b h]
  apply List.take_left'
  simp
  omega

theorem drop_take_overwrite (b : Buffer n) {o : Nat} {src : List UInt8}
    (h : o + src.length ≤ n) : ((b.overwrite o src).toList.drop o).take src.length = src := by
  rw [List.take_drop, take_overwrite_add b h]
  apply List.drop_left'
  simp
  omega

@[simp] theorem overwrite_nil (b : Buffer n) (o : Nat) : b.overwrite o [] = b := by
  apply Vector.ext
  intro i hi
  simp only [overwrite, Vector.getElem_ofFn, List.length_nil, Nat.add_zero]
  rw [if_neg (by omega)]
  rfl

end Buffer

end Lib
