import EnoceanCore.Enocean.Sensor
import EnoceanCore.Lib.Framing

/-!
# The fields of a sensor report

The grammar of the fields between the sequence number and the tag (`CompleteField`): a
commissioning block, a field with a length byte, or a field of 1, 2 or 4 value bytes, by the
header. It is a framing (`fieldFraming`), so every byte string is a list of complete fields and
an incomplete rest in exactly one way. The loop of `handle_sensor` is the fold of the
measurements over these fields (`val_sensorLoop`).
-/

namespace EnoceanCore.Enocean

open Lib

/-! ## The grammar -/

/-- The low six bits of a header. -/
def typeIdOf (header : UInt8) : UInt8 := header &&& kTlvTypeMask

/-- The top two bits of a header. -/
def sizeBitsOf (header : UInt8) : UInt8 := header >>> kTlvSizeShift

/-- The header of a commissioning block. -/
def IsCommissioning (header : UInt8) : Prop := typeIdOf header = 0x3E

/-- The header of a field with a length byte. -/
def IsVariable (header : UInt8) : Prop := sizeBitsOf header = 3 ∨ typeIdOf header = 0x3C

instance : DecidablePred IsCommissioning := fun _ => inferInstanceAs (Decidable (_ = _))

instance : DecidablePred IsVariable := fun _ => inferInstanceAs (Decidable (_ ∨ _))

/-- The bytes of one complete field. -/
inductive CompleteField : List UInt8 → Prop
  | commissioning (header : UInt8) (block : List UInt8) (hkind : IsCommissioning header)
      (hlen : block.length = 22) : CompleteField (header :: block)
  | varLen (header len : UInt8) (value : List UInt8) (hno : ¬ IsCommissioning header)
      (hkind : IsVariable header) (hlen : value.length = len.toNat) :
      CompleteField (header :: len :: value)
  | fixed (header : UInt8) (value : List UInt8) (hno : ¬ IsCommissioning header)
      (hkind : ¬ IsVariable header) (hlen : value.length = 2 ^ (sizeBitsOf header).toNat) :
      CompleteField (header :: value)

/-- The beginning of a field that is not complete. -/
def IncompleteField (t : List UInt8) : Prop :=
  t ≠ [] ∧ ∃ more, more ≠ [] ∧ CompleteField (t ++ more)

/-! ## Finding the first field -/

/-- The length the field in front is to have, if its first bytes tell. -/
def fieldLength : List UInt8 → Option Nat
  | [] => none
  | header :: rest =>
    if IsCommissioning header then some 23
    else if IsVariable header then rest.head?.map fun len => 2 + len.toNat
    else some (1 + 2 ^ (sizeBitsOf header).toNat)

/-- The length of the field in front, if it is complete. -/
def fieldSize (xs : List UInt8) : Option Nat := (fieldLength xs).filter (· ≤ xs.length)

theorem fieldSize_eq_some {xs : List UInt8} {n : Nat} :
    fieldSize xs = some n ↔ fieldLength xs = some n ∧ n ≤ xs.length := by
  rw [fieldSize, Option.filter_eq_some_iff, decide_eq_true_iff]

/-- A field has at least two bytes. -/
theorem two_le_of_fieldLength {xs : List UInt8} {n : Nat} (h : fieldLength xs = some n) :
    2 ≤ n := by
  cases xs with
  | nil => cases h
  | cons header rest =>
    rw [fieldLength] at h
    split at h
    · cases h
      decide
    · split at h
      · obtain ⟨len, -, rfl⟩ := Option.map_eq_some_iff.mp h
        exact Nat.le_add_right 2 _
      · cases h
        exact Nat.add_le_add_left Nat.one_le_two_pow 1

/-- What follows does not change the length. -/
theorem fieldLength_append {xs : List UInt8} {n : Nat} (h : fieldLength xs = some n)
    (ys : List UInt8) : fieldLength (xs ++ ys) = some n := by
  cases xs with
  | nil => cases h
  | cons header rest =>
    rw [List.cons_append, fieldLength]
    rw [fieldLength] at h
    split
    · rw [if_pos ‹_›] at h
      exact h
    · rw [if_neg ‹_›] at h
      split
      · rw [if_pos ‹_›] at h
        obtain ⟨len, hlen, rfl⟩ := Option.map_eq_some_iff.mp h
        rw [List.head?_append, hlen]
        rfl
      · rw [if_neg ‹_›] at h
        exact h

/-- The first two bytes tell the length. -/
theorem fieldLength_take {xs : List UInt8} {n m : Nat} (h : fieldLength xs = some n)
    (hm : 2 ≤ m) : fieldLength (xs.take m) = some n := by
  obtain ⟨k, rfl⟩ : ∃ k, m = k + 2 := ⟨m - 2, by omega⟩
  match xs, h with
  | [header], h => exact h
  | header :: next :: rest, h => exact h

/-- The framing of a report. -/
def fieldFraming : Framing UInt8 where
  size := fieldSize
  pos h := Nat.lt_of_lt_of_le Nat.zero_lt_two (two_le_of_fieldLength (fieldSize_eq_some.mp h).1)
  fits h := (fieldSize_eq_some.mp h).2
  stable := by
    intro xs n h ys
    obtain ⟨hlength, hfits⟩ := fieldSize_eq_some.mp h
    have htake := fieldLength_take hlength (two_le_of_fieldLength hlength)
    refine fieldSize_eq_some.mpr ⟨fieldLength_append htake ys, ?_⟩
    rw [List.length_append, List.length_take, Nat.min_eq_left hfits]
    exact Nat.le_add_right n _

theorem isUnit_iff_fieldLength {u : List UInt8} :
    fieldFraming.IsUnit u ↔ fieldLength u = some u.length := by
  unfold Framing.IsUnit
  exact fieldSize_eq_some.trans (and_iff_left (Nat.le_refl _))

/-- The units of the framing are the complete fields. -/
theorem isUnit_iff_completeField {u : List UInt8} :
    fieldFraming.IsUnit u ↔ CompleteField u := by
  rw [isUnit_iff_fieldLength]
  constructor
  · intro h
    cases u with
    | nil => cases h
    | cons header rest =>
      rw [fieldLength, List.length_cons] at h
      split at h
      · rename_i hkind
        exact .commissioning header rest hkind (by have := Option.some.inj h; omega)
      · rename_i hno
        split at h
        · rename_i hkind
          obtain ⟨len, hlen, heq⟩ := Option.map_eq_some_iff.mp h
          cases rest with
          | nil => cases hlen
          | cons next value =>
            cases hlen
            rw [List.length_cons] at heq
            exact .varLen header _ value hno hkind (by omega)
        · rename_i hkind
          exact .fixed header rest hno hkind (by have := Option.some.inj h; omega)
  · intro h
    cases h with
    | commissioning header block hkind hlen =>
      rw [fieldLength, if_pos hkind, List.length_cons, hlen]
    | varLen header len value hno hkind hlen =>
      rw [fieldLength, if_neg hno, if_pos hkind, List.length_cons, List.length_cons, hlen]
      exact congrArg some (Nat.add_comm 2 _)
    | fixed header value hno hkind hlen =>
      rw [fieldLength, if_neg hno, if_neg hkind, List.length_cons, hlen]
      exact congrArg some (Nat.add_comm 1 _)

/-- Only the header of a field with a length byte leaves the length open. -/
theorem of_fieldLength_eq_none {t : List UInt8} (hne : t ≠ []) (h : fieldLength t = none) :
    ∃ header, t = [header] ∧ ¬ IsCommissioning header ∧ IsVariable header := by
  cases t with
  | nil => exact absurd rfl hne
  | cons header rest =>
    rw [fieldLength] at h
    split at h
    · cases h
    · split at h
      · cases rest with
        | nil => exact ⟨header, rfl, ‹_›, ‹_›⟩
        | cons len value => cases h
      · cases h

/-- No complete field is in front of the empty string and of an incomplete field, and of
nothing else. -/
theorem size_eq_none_iff {t : List UInt8} :
    fieldFraming.size t = none ↔ t = [] ∨ IncompleteField t := by
  constructor
  · intro h
    by_cases hnil : t = []
    · exact Or.inl hnil
    refine Or.inr ⟨hnil, ?_⟩
    simp only [← isUnit_iff_completeField, isUnit_iff_fieldLength]
    cases hlength : fieldLength t with
    | some n =>
      have hlong : t.length < n := by
        by_contra hfits
        have hsize : fieldFraming.size t = some n :=
          fieldSize_eq_some.mpr ⟨hlength, Nat.le_of_not_lt hfits⟩
        rw [h] at hsize
        cases hsize
      refine ⟨List.replicate (n - t.length) 0, ?_, ?_⟩
      · exact List.ne_nil_of_length_pos (by rw [List.length_replicate]; omega)
      · rw [fieldLength_append hlength, List.length_append, List.length_replicate]
        exact congrArg some (by omega)
    | none =>
      -- the length byte is missing
      obtain ⟨header, rfl, hno, hkind⟩ := of_fieldLength_eq_none hnil hlength
      refine ⟨[0], List.cons_ne_nil 0 [], ?_⟩
      rw [List.singleton_append, fieldLength, if_neg hno, if_pos hkind]
      rfl
  · intro hpartial
    rcases hpartial with rfl | ⟨-, more, hmore, hfield⟩
    · rfl
    · exact Framing.IsPartial.size_eq_none ⟨more, hmore, isUnit_iff_completeField.mpr hfield⟩

/-- The complete fields of a byte string and what is left. -/
structure FieldSplit (bytes : List UInt8) (fields : List (List UInt8)) (tail : List UInt8) :
    Prop where
  join : fields.flatten ++ tail = bytes
  complete : ∀ field ∈ fields, CompleteField field
  tail : tail = [] ∨ IncompleteField tail

theorem fieldSplit_iff {bytes tail : List UInt8} {fields : List (List UInt8)} :
    FieldSplit bytes fields tail ↔ fieldFraming.Splits bytes fields tail := by
  constructor
  · exact fun h => ⟨h.join, fun u hu => isUnit_iff_completeField.mpr (h.complete u hu),
      size_eq_none_iff.mpr h.tail⟩
  · exact fun h => ⟨h.join, fun u hu => isUnit_iff_completeField.mp (h.units u hu),
      size_eq_none_iff.mp h.tail⟩

/-- A byte string is complete fields and a tail in exactly one way. -/
theorem existsUnique_fieldSplit (bytes : List UInt8) :
    ∃! s : List (List UInt8) × List UInt8, FieldSplit bytes s.1 s.2 := by
  refine ⟨fieldFraming.split bytes, fieldSplit_iff.mpr (Framing.splits_split bytes), ?_⟩
  rintro ⟨fields, tail⟩ h
  obtain ⟨hfields, htail⟩ := (Framing.splits_split bytes).unique (fieldSplit_iff.mp h)
  exact Prod.ext hfields htail

/-! ## The loop -/

/-- The type and the value of a field of fixed size. -/
def fixedField : List UInt8 → Option (UInt8 × List UInt8)
  | [] => none
  | header :: value =>
    if IsCommissioning header ∨ IsVariable header then none
    else some (typeIdOf header, value)

/-- The word with these bytes. -/
def leValue (bytes : List UInt8) : UInt32 := UInt32.ofNat (leNat bytes)

/-- The effect of one field on the report. -/
def applyUnit (data : SensorData) (unit : List UInt8) : SensorData :=
  match fixedField unit with
  | none => data
  | some (typeId, value) => applyField data typeId value.length (leValue value)

theorem toNat_assembleValue {sensorBytes : Span} {j n : Nat} (hn : n ≤ 4)
    (hfits : j + n ≤ sensorBytes.size) :
    (assembleValue sensorBytes j n).val.toNat = leNat ((sensorBytes.bytes.drop j).take n) := by
  induction n with
  | zero => rfl
  | succ n ih =>
    have hin : j + n < sensorBytes.bytes.length := by
      rw [Span.length_bytes]
      omega
    have hbytes : (sensorBytes.bytes.drop j).take (n + 1) =
        (sensorBytes.bytes.drop j).take n ++ [sensorBytes.byte (j + n)] := by
      rw [List.take_add_one, List.getElem?_drop, List.getElem?_eq_getElem hin,
        Span.getElem_bytes]
      rfl
    have hlen : ((sensorBytes.bytes.drop j).take n).length = n := by
      rw [List.length_take, List.length_drop]
      omega
    have hor := toNat_or_byte (ih (by omega) (by omega)) (by omega) (sensorBytes.byte (j + n))
    rw [hlen] at hor
    rw [hbytes, ← hor]
    rfl

theorem val_assembleValue {sensorBytes : Span} {j n : Nat} (hn : n ≤ 4)
    (hfits : j + n ≤ sensorBytes.size) :
    (assembleValue sensorBytes j n).val = leValue ((sensorBytes.bytes.drop j).take n) := by
  apply UInt32.toNat.inj
  rw [toNat_assembleValue hn hfits, leValue, UInt32.toNat_ofNat_of_lt']
  have hlt := leNat_lt ((sensorBytes.bytes.drop j).take n)
  have hlen : ((sensorBytes.bytes.drop j).take n).length ≤ 4 :=
    Nat.le_trans (List.length_take_le _ _) hn
  calc leNat ((sensorBytes.bytes.drop j).take n) < 256 ^ _ := hlt
    _ ≤ 256 ^ 4 := Nat.pow_le_pow_right (by decide) hlen

section Step

variable {sensorBytes : Span} {i : Nat}

theorem drop_bytes (hi : i < sensorBytes.size) :
    sensorBytes.bytes.drop i = sensorBytes.byte i :: sensorBytes.bytes.drop (i + 1) := by
  have hlen : i < sensorBytes.bytes.length := by
    rw [Span.length_bytes]
    exact hi
  rw [List.drop_eq_getElem_cons hlen, Span.getElem_bytes]

/-- A field that is skipped has no effect. -/
theorem applyUnit_of_skipped (data : SensorData) {header : UInt8} (rest : List UInt8)
    (h : IsCommissioning header ∨ IsVariable header) : applyUnit data (header :: rest) = data := by
  rw [applyUnit, fixedField, if_pos h]

theorem applyUnit_of_fixed (data : SensorData) {header : UInt8} (value : List UInt8)
    (h : ¬ (IsCommissioning header ∨ IsVariable header)) :
    applyUnit data (header :: value) =
      applyField data (typeIdOf header) value.length (leValue value) := by
  rw [applyUnit, fixedField, if_neg h]

theorem sensorLoop_end (data : SensorData) (hi : sensorBytes.size ≤ i) :
    (sensorLoop sensorBytes i data).val = data := by
  rw [sensorLoop, dif_neg (Nat.not_lt.mpr hi)]
  rfl

theorem sizeBitsOf_lt {header : UInt8} (h : sizeBitsOf header ≠ 3) : sizeBitsOf header < 3 := by
  have hshift : (sizeBitsOf header).toNat = header.toNat / 64 := by
    rw [sizeBitsOf, UInt8.toNat_shiftRight]
    exact Nat.shiftRight_eq_div_pow _ 6
  have hheader := header.toNat_lt
  have hne : (sizeBitsOf header).toNat ≠ 3 := fun heq => h (UInt8.toNat.inj heq)
  rw [UInt8.lt_iff_toNat_lt]
  show (sizeBitsOf header).toNat < 3
  omega

/-- One round of the loop: the field in front is applied, or the loop ends. -/
theorem sensorLoop_round (data : SensorData) (hi : i < sensorBytes.size) :
    (sensorLoop sensorBytes i data).val =
      match fieldSize (sensorBytes.bytes.drop i) with
      | none => data
      | some n => (sensorLoop sensorBytes (i + n)
          (applyUnit data ((sensorBytes.bytes.drop i).take n))).val := by
  have hlen : (sensorBytes.bytes.drop i).length = sensorBytes.size - i := by
    rw [List.length_drop, Span.length_bytes]
  have hdrop := drop_bytes hi
  rw [sensorLoop, dif_pos hi, fieldSize, hlen, hdrop, fieldLength]
  simp only [Traced.val_bind, Span.val_get, Traced.val_ite, Traced.val_pure]
  by_cases hcomm : IsCommissioning (sensorBytes.byte i)
  · have hcomm' : sensorBytes.byte i &&& kTlvTypeMask = kTlvTypeCommissioning := hcomm
    rw [if_pos hcomm', if_pos hcomm, Option.filter_some]
    by_cases hfits : i + 1 + kTlvCommissioningBlock ≤ sensorBytes.size
    · have hfits' : decide (23 ≤ sensorBytes.size - i) = true := by
        simp only [kTlvCommissioningBlock] at hfits
        exact decide_eq_true (by omega)
      have hnext : i + 23 = i + 1 + kTlvCommissioningBlock := by
        simp only [kTlvCommissioningBlock]
      rw [if_pos hfits, if_pos hfits']
      dsimp only
      rw [hnext, List.take_succ_cons, applyUnit_of_skipped data _ (Or.inl hcomm)]
    · have hfits' : ¬ decide (23 ≤ sensorBytes.size - i) = true := by
        simp only [kTlvCommissioningBlock] at hfits
        simp only [decide_eq_true_eq]
        omega
      rw [if_neg hfits, if_neg hfits', sensorLoop_end data (Nat.le_refl _)]
  · have hcomm' : ¬ sensorBytes.byte i &&& kTlvTypeMask = kTlvTypeCommissioning := hcomm
    rw [if_neg hcomm', if_neg hcomm]
    by_cases hvar : IsVariable (sensorBytes.byte i)
    · have hvar' : sensorBytes.byte i >>> kTlvSizeShift = kTlvSizeVar ∨
          sensorBytes.byte i &&& kTlvTypeMask = kTlvTypeOptional := hvar
      rw [if_pos hvar', if_pos hvar]
      by_cases hlast : i + 1 < sensorBytes.size
      swap
      · have hnil : sensorBytes.bytes.drop (i + 1) = [] := by
          apply List.drop_eq_nil_of_le
          rw [Span.length_bytes]
          exact Nat.le_of_not_lt hlast
        rw [if_pos (Nat.le_of_not_lt hlast), hnil]
        rfl
      rw [if_neg (Nat.not_le.mpr hlast), drop_bytes hlast, List.head?_cons, Option.map_some,
        Option.filter_some]
      by_cases hfits : (sensorBytes.byte (i + 1)).toNat > sensorBytes.size - (i + 1 + 1)
      · have hfits' : ¬ decide (2 + (sensorBytes.byte (i + 1)).toNat ≤
            sensorBytes.size - i) = true := by
          simp only [decide_eq_true_eq]
          omega
        rw [if_pos hfits, if_neg hfits']
      · have hfits' : decide (2 + (sensorBytes.byte (i + 1)).toNat ≤
            sensorBytes.size - i) = true := decide_eq_true (by omega)
        have hnext : i + (2 + (sensorBytes.byte (i + 1)).toNat) =
            i + 1 + 1 + (sensorBytes.byte (i + 1)).toNat := by
          omega
        rw [if_neg hfits, if_pos hfits']
        dsimp only
        rw [hnext, Nat.add_comm 2, List.take_succ_cons,
          applyUnit_of_skipped data _ (Or.inr hvar)]
    · have hvar' : ¬ (sensorBytes.byte i >>> kTlvSizeShift = kTlvSizeVar ∨
          sensorBytes.byte i &&& kTlvTypeMask = kTlvTypeOptional) := hvar
      have hsize : sizeBitsOf (sensorBytes.byte i) < 3 := sizeBitsOf_lt fun h => hvar (Or.inl h)
      have hshift : 1 <<< (sensorBytes.byte i >>> kTlvSizeShift).toNat =
          2 ^ (sizeBitsOf (sensorBytes.byte i)).toNat := Nat.one_shiftLeft _
      rw [if_neg hvar', if_neg hvar, hshift, Option.filter_some]
      by_cases hfits : i + 1 + 2 ^ (sizeBitsOf (sensorBytes.byte i)).toNat > sensorBytes.size
      · have hfits' : ¬ decide (1 + 2 ^ (sizeBitsOf (sensorBytes.byte i)).toNat ≤
            sensorBytes.size - i) = true := by
          simp only [decide_eq_true_eq]
          omega
        rw [if_pos hfits, if_neg hfits']
      · have hfits' : decide (1 + 2 ^ (sizeBitsOf (sensorBytes.byte i)).toNat ≤
            sensorBytes.size - i) = true := decide_eq_true (by omega)
        have hfour : 2 ^ (sizeBitsOf (sensorBytes.byte i)).toNat ≤ 2 ^ 2 :=
          Nat.pow_le_pow_right (by decide) (Nat.le_of_lt_succ hsize)
        have hvalue : ((sensorBytes.bytes.drop (i + 1)).take
            (2 ^ (sizeBitsOf (sensorBytes.byte i)).toNat)).length =
              2 ^ (sizeBitsOf (sensorBytes.byte i)).toNat := by
          rw [List.length_take, List.length_drop, Span.length_bytes]
          omega
        rw [if_neg hfits, if_pos hfits', val_assembleValue hfour (by omega)]
        dsimp only
        rw [Nat.add_comm 1 (2 ^ _), List.take_succ_cons,
          applyUnit_of_fixed data _ (fun h => h.elim hcomm hvar), hvalue, Nat.add_right_comm i 1]
        rfl

end Step

/-- **The loop.** It folds the effects of the complete fields, in order. -/
theorem val_sensorLoop (sensorBytes : Span) (data : SensorData) :
    (sensorLoop sensorBytes 0 data).val =
      (fieldFraming.split sensorBytes.bytes).1.foldl applyUnit data := by
  refine @Framing.loop_eq_foldl UInt8 fieldFraming SensorData sensorBytes.bytes
    (fun i s => (sensorLoop sensorBytes i s).val) applyUnit ?_ ?_ 0 data
  · intro i s hnone
    by_cases hi : i < sensorBytes.size
    · have hround := sensorLoop_round s hi
      rw [show fieldSize (sensorBytes.bytes.drop i) = none from hnone] at hround
      exact hround
    · exact sensorLoop_end s (Nat.le_of_not_lt hi)
  · intro i s n hsome
    have hi : i < sensorBytes.size := by
      have hpos := fieldFraming.pos hsome
      have hfits := fieldFraming.fits hsome
      rw [List.length_drop, Span.length_bytes] at hfits
      omega
    have hround := sensorLoop_round s hi
    rw [show fieldSize (sensorBytes.bytes.drop i) = some n from hsome] at hround
    exact hround

end EnoceanCore.Enocean
