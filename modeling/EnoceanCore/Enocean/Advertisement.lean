import EnoceanCore.Enocean.Types
import EnoceanCore.Lib.LittleEndian

/-!
# The walk over the AD structures

`extract_manufacturer_data` walks the length-type-value list of an advertisement and
returns the payload of the first manufacturer structure with the EnOcean company id.

The walk is described by what it does at one index: it steps over the structure there
(`Skips`), selects it (`Selects`) or stops. `extractLoop_step` says that these are the
only cases and what each one returns and accesses; `extractManufacturerData_cases` and
`extractManufacturerData_confined_iff` follow by induction over the walk.

The size check of the loop runs before the index moves past the length byte, so a
structure that ends one byte after the advertisement passes it (`Overruns`).
-/

namespace EnoceanCore.Enocean

open Lib

/-- The loop of `extract_manufacturer_data`, from the index `i`. -/
def extractLoop (advData : Span) (i : Nat) : Traced Action Span :=
  if _h : i < advData.size then do
    let len ← advData.get i
    if len = 0 then return Span.empty
    if i + len.toNat > advData.size then return Span.empty
    let i := i + 1
    let type ← advData.get i
    if type = kAdTypeManufacturer then
      if advData.size - i < 3 then return Span.empty
      let b1 ← advData.get (i + 1)
      let b2 ← advData.get (i + 2)
      let companyId := leHalf b1 b2
      if companyId = kEnoceanManufacturerId then
        if len.toNat < 3 then return Span.empty
        let payloadStart := i + 3
        let payloadLen := len.toNat - 3
        let payload ← advData.subspan payloadStart payloadLen
        return payload
    extractLoop advData (i + len.toNat)
  else return Span.empty
termination_by advData.size - i

def extractManufacturerData (advData : Span) : Traced Action Span := extractLoop advData 0

/-! ## One structure -/

/-- The length byte of the structure at `i`. -/
def adLen (data : Span) (i : Nat) : Nat := (data.byte i).toNat

/-- The company id of the structure at `i`, if it is a manufacturer structure. -/
def companyId (data : Span) (i : Nat) : UInt16 :=
  leHalf (data.byte (i + 2)) (data.byte (i + 3))

/-- A structure starts at `i` and passes the size check of the loop. -/
def Enters (data : Span) (i : Nat) : Prop :=
  i < data.size ∧ data.byte i ≠ 0 ∧ i + adLen data i ≤ data.size

/-- The walk steps over the structure at `i`. -/
def Skips (data : Span) (i : Nat) : Prop :=
  Enters data i ∧ (data.byte (i + 1) = kAdTypeManufacturer →
    3 ≤ data.size - (i + 1) ∧ companyId data i ≠ kEnoceanManufacturerId)

/-- The walk selects the structure at `i`. -/
def Selects (data : Span) (i : Nat) : Prop :=
  Enters data i ∧ data.byte (i + 1) = kAdTypeManufacturer ∧ 3 ≤ data.size - (i + 1) ∧
    companyId data i = kEnoceanManufacturerId ∧ 3 ≤ adLen data i

instance (data : Span) (i : Nat) : Decidable (Selects data i) :=
  inferInstanceAs (Decidable ((_ ∧ _ ∧ _) ∧ _ ∧ _ ∧ _ ∧ _))

/-- The structure at `i` ends one byte after the data, and the walk takes its type (for a
length of one) or its payload from there. -/
def Overruns (data : Span) (i : Nat) : Prop :=
  Enters data i ∧ i + adLen data i = data.size ∧ (adLen data i = 1 ∨ Selects data i)

/-- The walk gets from `i` to `p` by stepping over structures. -/
inductive Walk (data : Span) : Nat → Nat → Prop
  | here (i : Nat) : Walk data i i
  | skip {i p : Nat} (h : Skips data i) (rest : Walk data (i + 1 + adLen data i) p) :
      Walk data i p

/-- The payload of the structure at `i`, after the company id. -/
def payloadAt (data : Span) (i : Nat) : Span := data.slice (i + 4) (adLen data i - 3)

theorem adLen_pos {data : Span} {i : Nat} (h : data.byte i ≠ 0) : 0 < adLen data i := by
  rw [adLen, Nat.pos_iff_ne_zero]
  exact fun h0 => h (UInt8.toNat.inj h0)

/-- The three things the loop does at an index. -/
inductive LoopStep (data : Span) (i : Nat) (r : Traced Action Span) : Prop
  | stop (hskip : ¬ Skips data i) (hsel : ¬ Selects data i) (hval : r.val = Span.empty)
      (hbounds : InBounds r ↔ ¬ Overruns data i)
  | select (hsel : Selects data i) (hval : r.val = payloadAt data i)
      (hbounds : InBounds r ↔ ¬ Overruns data i)
  | skip (hskip : Skips data i) (hval : r.val = (extractLoop data (i + 1 + adLen data i)).val)
      (hbounds : InBounds r ↔
        ¬ Overruns data i ∧ InBounds (extractLoop data (i + 1 + adLen data i)))

/-- The case of `extractLoop_step` where the structure passes the size check. -/
theorem extractLoop_step_enters {data : Span} {i : Nat} (hent : Enters data i) :
    LoopStep data i (extractLoop data i) := by
  obtain ⟨hi, h0, hend⟩ := hent
  have hpos := adLen_pos h0
  have hend' : ¬ i + (data.byte i).toNat > data.size := Nat.not_lt.mpr hend
  have hover : i + 1 < data.size ↔ ¬ (i + adLen data i = data.size ∧ adLen data i = 1) := by
    omega
  rw [extractLoop, dif_pos hi]
  by_cases htype : data.byte (i + 1) = kAdTypeManufacturer
  · by_cases hroom : data.size - (i + 1) < 3
    · have hsel : ¬ Selects data i := fun h => by
        have := h.2.2.1
        omega
      refine .stop (fun h => ?_) hsel (by simp [h0, hend', htype, hroom]) ?_
      · have := (h.2 htype).1
        omega
      · simp only [inBounds_bind, inBounds_get, Span.val_get, h0, hend', htype, hroom, if_true,
          if_false, inBounds_pure, hi, true_and, and_true]
        simp only [Overruns, hsel, or_false, hover, not_and]
        exact ⟨fun h _ => h, fun h => h ⟨hi, h0, hend⟩⟩
    · by_cases hid : companyId data i = kEnoceanManufacturerId
      · have hid' : leHalf (data.byte (i + 1 + 1)) (data.byte (i + 1 + 2)) =
            kEnoceanManufacturerId := hid
        have hskip : ¬ Skips data i := fun h => (h.2 htype).2 hid
        have h1 : i + 1 < data.size := by omega
        have h2 : i + 1 + 1 < data.size := by omega
        have h3 : i + 1 + 2 < data.size := by omega
        by_cases hlen : adLen data i < 3
        · have hlen' : (data.byte i).toNat < 3 := hlen
          have hsel : ¬ Selects data i := fun h => by
            have := h.2.2.2.2
            omega
          refine .stop hskip hsel (by simp [h0, hend', htype, hroom, hid', hlen']) ?_
          simp only [inBounds_bind, inBounds_get, Span.val_get, h0, hend', htype, hroom, hid',
            hlen', if_true, if_false, inBounds_pure, hi, h1, h2, h3, true_and, true_iff]
          rintro ⟨-, hsize, hone | hs⟩
          · omega
          · exact hsel hs
        · have hlen' : ¬ (data.byte i).toNat < 3 := hlen
          have hsel : Selects data i := ⟨⟨hi, h0, hend⟩, htype, by omega, hid, by omega⟩
          refine .select hsel ?_ ?_
          · simp [h0, hend', htype, hroom, hid', hlen', payloadAt, adLen]
          · simp only [inBounds_bind, inBounds_get, inBounds_subspan, Span.val_get, h0, hend',
              htype, hroom, hid', hlen', if_true, if_false, hi, h1, h2, h3, true_and]
            simp only [Overruns, hsel, or_true, and_true, hsel.1, true_and, adLen] at hend ⊢
            omega
      · have hid' : ¬ leHalf (data.byte (i + 1 + 1)) (data.byte (i + 1 + 2)) =
            kEnoceanManufacturerId := hid
        have hskip : Skips data i := ⟨⟨hi, h0, hend⟩, fun _ => ⟨by omega, hid⟩⟩
        refine .skip hskip (by simp [h0, hend', htype, hroom, hid', adLen]) ?_
        have h1 : i + 1 < data.size := by omega
        have h2 : i + 1 + 1 < data.size := by omega
        have h3 : i + 1 + 2 < data.size := by omega
        have hno : ¬ Overruns data i := by
          rintro ⟨-, hsize, hone | hs⟩
          · omega
          · exact hid hs.2.2.2.1
        simp only [inBounds_bind, inBounds_get, Span.val_get, h0, hend', htype, hroom, hid',
          if_true, if_false, hi, h1, h2, h3, true_and, hno, not_false_eq_true, adLen]
  · have hskip : Skips data i := ⟨⟨hi, h0, hend⟩, fun h => absurd h htype⟩
    refine .skip hskip (by simp [h0, hend', htype, adLen]) ?_
    have hover' : ¬ Overruns data i ↔ i + 1 < data.size := by
      rw [hover, Overruns]
      constructor
      · exact fun h hs => h ⟨⟨hi, h0, hend⟩, hs.1, Or.inl hs.2⟩
      · rintro h ⟨-, hsize, hone | hs⟩
        · exact h ⟨hsize, hone⟩
        · exact htype hs.2.1
    simp only [inBounds_bind, inBounds_get, Span.val_get, h0, hend', htype, if_false, hi,
      true_and, hover', adLen]

theorem extractLoop_step (data : Span) (i : Nat) : LoopStep data i (extractLoop data i) := by
  by_cases hent : Enters data i
  · exact extractLoop_step_enters hent
  · -- the loop ends at `i`: past the data, at a zero length byte or at a structure too long
    refine .stop (fun h => hent h.1) (fun h => hent h.1) ?_ ?_
    · unfold extractLoop
      split
      · simp only [Traced.val_bind, Span.val_get, Traced.val_ite, Traced.val_pure]
        split
        · rfl
        · rename_i hi h0
          rw [if_pos (by by_contra hend; exact hent ⟨hi, h0, Nat.le_of_not_gt hend⟩)]
      · rfl
    · have hover : ¬ Overruns data i := fun h => hent h.1
      simp only [hover, not_false_eq_true, iff_true]
      unfold extractLoop
      split
      · rename_i hi
        apply Traced.every_seq ((inBounds_get data i).mpr hi)
        refine Traced.every_ite (fun _ => Traced.every_pure _ _) (fun h0 => ?_)
        rw [if_pos (by by_contra hend; exact hent ⟨hi, h0, Nat.le_of_not_gt hend⟩)]
        exact Traced.every_pure _ _
      · exact Traced.every_pure _ _

/-! ## The whole walk -/

theorem extractLoop_cases (data : Span) (i : Nat) :
    (extractLoop data i).val = Span.empty ∨
      ∃ p, Walk data i p ∧ Selects data p ∧ (extractLoop data i).val = payloadAt data p := by
  cases extractLoop_step data i with
  | stop _ _ hval => exact Or.inl hval
  | select hsel hval => exact Or.inr ⟨i, .here i, hsel, hval⟩
  | skip hskip hval =>
    have hi := hskip.1.1
    rw [hval]
    rcases extractLoop_cases data (i + 1 + adLen data i) with h | ⟨p, hw, hs, h⟩
    · exact Or.inl h
    · exact Or.inr ⟨p, .skip hskip hw, hs, h⟩
termination_by data.size - i

/-- A structure cannot be both stepped over and selected. -/
theorem Selects.not_skips {data : Span} {i : Nat} (h : Selects data i) : ¬ Skips data i :=
  fun hskip => (hskip.2 h.2.1).2 h.2.2.2.1

/-- The walk returns the payload of the structure it selects. -/
theorem extractLoop_of_walk {data : Span} {i p : Nat} (hwalk : Walk data i p)
    (hsel : Selects data p) : (extractLoop data i).val = payloadAt data p := by
  induction hwalk with
  | here i =>
    cases extractLoop_step data i with
    | stop _ hno => exact absurd hsel hno
    | select _ hval => exact hval
    | skip hskip => exact absurd hskip hsel.not_skips
  | @skip i p hskip _ ih =>
    cases extractLoop_step data i with
    | stop hno => exact absurd hskip hno
    | select hsel' => exact absurd hskip hsel'.not_skips
    | skip _ hval => exact hval.trans (ih hsel)

theorem extractLoop_inBounds_iff (data : Span) (i : Nat) :
    InBounds (extractLoop data i) ↔ ∀ p, Walk data i p → ¬ Overruns data p := by
  have hhere : ¬ Skips data i → ∀ p, Walk data i p → p = i := by
    intro hskip p hw
    cases hw with
    | here => rfl
    | skip h => exact absurd h hskip
  cases extractLoop_step data i with
  | stop hskip _ _ hbounds =>
    rw [hbounds]
    exact ⟨fun h p hw => hhere hskip p hw ▸ h, fun h => h i (.here i)⟩
  | select hsel _ hbounds =>
    rw [hbounds]
    exact ⟨fun h p hw => hhere hsel.not_skips p hw ▸ h, fun h => h i (.here i)⟩
  | skip hskip _ hbounds =>
    have hi := hskip.1.1
    rw [hbounds, extractLoop_inBounds_iff data (i + 1 + adLen data i)]
    constructor
    · rintro ⟨hno, hrest⟩ p hw
      cases hw with
      | here => exact hno
      | skip _ rest => exact hrest p rest
    · exact fun h => ⟨h i (.here i), fun p hw => h p (.skip hskip hw)⟩
termination_by data.size - i

theorem extractLoop_accessesThrough (data : Span) (i : Nat) :
    AccessesThrough data.extent (extractLoop data i) := by
  have hget : ∀ j, AccessesThrough data.extent (data.get j : Traced Action UInt8) := fun j =>
    (Span.every_get _ data j).mpr ⟨_, rfl, rfl⟩
  have hempty : AccessesThrough data.extent (pure Span.empty : Traced Action Span) :=
    Traced.every_pure _ _
  unfold extractLoop
  split
  · rename_i hi
    refine Traced.every_seq (hget i) (Traced.every_ite (fun _ => hempty) fun _ => ?_)
    refine Traced.every_ite (fun _ => hempty) fun _ => Traced.every_seq (hget (i + 1)) ?_
    have hrest := extractLoop_accessesThrough data (i + 1 + (data.byte i).toNat)
    refine Traced.every_ite (fun _ => ?_) fun _ => hrest
    refine Traced.every_ite (fun _ => hempty) fun _ => ?_
    refine Traced.every_seq (hget _) (Traced.every_seq (hget _) ?_)
    refine Traced.every_ite (fun _ => ?_) fun _ => hrest
    refine Traced.every_ite (fun _ => hempty) fun _ => ?_
    exact (Span.every_subspan _ data _ _).mpr ⟨_, rfl, rfl⟩
  · exact hempty
termination_by data.size - i

/-- **The record found.** The result is the empty span or the payload of the structure the
walk selects. -/
theorem extractManufacturerData_cases (data : Span) :
    (extractManufacturerData data).val = Span.empty ∨
      ∃ p, Walk data 0 p ∧ Selects data p ∧
        (extractManufacturerData data).val = payloadAt data p :=
  extractLoop_cases data 0

/-- The walk reads and slices within the data exactly when no structure it visits overruns
the data by one byte. -/
theorem extractManufacturerData_confined_iff (data : Span) :
    Confined data.extent (extractManufacturerData data) ↔
      ∀ p, Walk data 0 p → ¬ Overruns data p :=
  (extractLoop_accessesThrough data 0).confined_iff.trans (extractLoop_inBounds_iff data 0)

theorem extractManufacturerData_accessesThrough (data : Span) :
    AccessesThrough data.extent (extractManufacturerData data) :=
  extractLoop_accessesThrough data 0

/-- The header of a selected structure, byte by byte. -/
theorem Selects.header {data : Span} {p : Nat} (h : Selects data p) :
    data.byte (p + 1) = 0xFF ∧ data.byte (p + 2) = 0xDA ∧ data.byte (p + 3) = 0x03 := by
  have hid : leHalf (data.byte (p + 2)) (data.byte (p + 3)) = leHalf 0xDA 0x03 :=
    h.2.2.2.1.trans (by decide)
  exact ⟨h.2.1, leHalf_inj.mp hid⟩

/-- The data of an advertisement that is a single EnOcean record. -/
def enoceanRecord (payload : List UInt8) : Span :=
  .ofList (UInt8.ofNat (payload.length + 3) :: 0xFF :: 0xDA :: 0x03 :: payload)

/-! ## The walk depends on the bytes of the data only -/

theorem extractLoop_last {data : Span} {i : Nat} (h : data.size ≤ i + 1) :
    (extractLoop data i).val = Span.empty := by
  cases extractLoop_step data i with
  | stop _ _ hval => exact hval
  | select hsel =>
    have := hsel.2.2.1
    omega
  | skip hskip hval =>
    rw [hval, extractLoop, dif_neg (by omega)]
    rfl

/-- On data with the same bytes the walk selects the same structure or none. -/
theorem extractLoop_congr {a b : Span} (hbytes : a.bytes = b.bytes) (i : Nat) :
    (extractLoop a i).val = Span.empty ∧ (extractLoop b i).val = Span.empty ∨
      ∃ p, Selects a p ∧ (extractLoop a i).val = payloadAt a p ∧
        (extractLoop b i).val = payloadAt b p := by
  have hsize : a.size = b.size := by
    rw [← Span.length_bytes a, hbytes, Span.length_bytes]
  by_cases hlast : a.size ≤ i + 1
  · exact Or.inl ⟨extractLoop_last hlast, extractLoop_last (hsize ▸ hlast)⟩
  have hbyte : ∀ j < a.size, a.byte j = b.byte j := fun j => Span.byte_eq_of_bytes_eq hbytes
  have h0 := hbyte i (by omega)
  have h1 := hbyte (i + 1) (by omega)
  have hlen : adLen a i = adLen b i := congrArg UInt8.toNat h0
  have hent : Enters a i ↔ Enters b i := by
    rw [Enters, Enters, hsize, h0, hlen]
  have hid : 3 ≤ a.size - (i + 1) → companyId a i = companyId b i := fun hroom => by
    rw [companyId, companyId, hbyte (i + 2) (by omega), hbyte (i + 3) (by omega)]
  have hskips : Skips a i ↔ Skips b i := by
    simp only [Skips, hent, h1, ← hsize]
    exact and_congr_right fun _ => imp_congr_right fun _ =>
      and_congr_right fun hroom => by rw [hid hroom]
  have hselects : Selects a i ↔ Selects b i := by
    simp only [Selects, hent, h1, hlen, ← hsize]
    exact and_congr_right fun _ => and_congr_right fun _ =>
      and_congr_right fun hroom => by rw [hid hroom]
  cases extractLoop_step a i with
  | stop hskip hsel hval =>
    cases extractLoop_step b i with
    | stop _ _ hval' => exact Or.inl ⟨hval, hval'⟩
    | select hsel' => exact absurd (hselects.mpr hsel') hsel
    | skip hskip' => exact absurd (hskips.mpr hskip') hskip
  | select hsel hval =>
    cases extractLoop_step b i with
    | stop _ hsel' => exact absurd (hselects.mp hsel) hsel'
    | select _ hval' => exact Or.inr ⟨i, hsel, hval, hval'⟩
    | skip hskip' => exact absurd (hskips.mpr hskip') hsel.not_skips
  | skip hskip hval =>
    cases extractLoop_step b i with
    | stop hskip' => exact absurd (hskips.mp hskip) hskip'
    | select hsel' => exact absurd hskip (hselects.mpr hsel').not_skips
    | skip _ hval' =>
      rw [hval, hval', ← hlen]
      exact extractLoop_congr hbytes (i + 1 + adLen a i)
termination_by a.size - i

end EnoceanCore.Enocean
