import EnoceanCore.Enocean.SensorReport

/-!
# Values of measurements

Temperature, battery, energy level, light and humidity are numbers with a documented scaling.
The width of a field comes from the packet, the width of the measurement from its type, and the
field loop narrows without a check. A field is measured exactly if and only if it fits
(`measurement_applyField_iff`); a wider one wraps. An acceleration of the wrong width is left
out instead.
-/

namespace EnoceanCore.Enocean

open Lib

/-! ## Documented values -/

/-- The types of the scaled measurements. -/
def scaledTypes : List UInt8 := [0x00, 0x01, 0x02, 0x04, 0x05, 0x06]

/-- The measurement of a type, as a number. -/
def SensorData.measurement (data : SensorData) (typeId : UInt8) : Option Int :=
  match typeId with
  | 0x00 => data.temperatureCdeg.map Int16.toInt
  | 0x01 => data.batteryVoltage.map fun v => (v.toNat : Int)
  | 0x02 => data.energyLvl.map fun v => (v.toNat : Int)
  | 0x04 => data.lightSolarCell.map fun v => (v.toNat : Int)
  | 0x05 => data.lightSensor.map fun v => (v.toNat : Int)
  | 0x06 => data.humidity.map fun v => (v.toNat : Int)
  | _ => none

/-- A number of 16 bits read with a sign. -/
def signed16 (n : Nat) : Int := if n < 2 ^ 15 then n else n - 2 ^ 16

/-- The value of all bytes of a field with the scaling of its type. -/
def scaledValue (typeId : UInt8) (value : List UInt8) : Int :=
  match typeId with
  | 0x00 => if value.length = 2 then signed16 (leNat value) else leNat value
  | 0x01 | 0x02 | 0x06 => leNat value / 2
  | _ => leNat value

/-- The least number the measurement of a type can hold, and the first above all of them. -/
def rangeOf (typeId : UInt8) : Int × Int :=
  match typeId with
  | 0x00 => (-2 ^ 15, 2 ^ 15)
  | 0x02 | 0x06 => (0, 2 ^ 8)
  | _ => (0, 2 ^ 16)

def InRange (typeId : UInt8) (v : Int) : Prop := (rangeOf typeId).1 ≤ v ∧ v < (rangeOf typeId).2

instance (typeId : UInt8) (v : Int) : Decidable (InRange typeId v) :=
  inferInstanceAs (Decidable (_ ∧ _))

/-- The value of a field, if its measurement can hold it. -/
def exactValue (typeId : UInt8) (value : List UInt8) : Option Int :=
  if InRange typeId (scaledValue typeId value) then some (scaledValue typeId value) else none

/-- The first number that is too large for a type. The humidity is masked to one byte before it
is halved. -/
def capacity (typeId : UInt8) : Nat :=
  match typeId with
  | 0x00 => 2 ^ 15
  | 0x01 => 2 ^ 17
  | 0x02 => 2 ^ 9
  | 0x06 => 2 ^ 8
  | _ => 2 ^ 16

/-- The field is no wider than what its type keeps. -/
def Fits (typeId : UInt8) (value : List UInt8) : Prop :=
  (typeId = 0x00 ∧ value.length = 2) ∨ leNat value < capacity typeId

instance (typeId : UInt8) (value : List UInt8) : Decidable (Fits typeId value) :=
  inferInstanceAs (Decidable (_ ∨ _))

/-! ## Narrowing -/

theorem toNat_leValue {value : List UInt8} (hlen : value.length ≤ 4) :
    (leValue value).toNat = leNat value := by
  have hlt : leNat value < 256 ^ 4 :=
    Nat.lt_of_lt_of_le (leNat_lt value) (Nat.pow_le_pow_right (by omega) hlen)
  rw [leValue, UInt32.toNat_ofNat_of_lt' hlt]

theorem toInt_lowHalf (w : UInt32) :
    (w &&& 0xFFFF).toUInt16.toInt16.toInt = signed16 (w.toNat % 2 ^ 16) := by
  have hmask : (w &&& 0xFFFF).toNat = w.toNat % 2 ^ 16 := by
    rw [UInt32.toNat_and]
    exact Nat.and_two_pow_sub_one_eq_mod w.toNat 16
  have hlow : (w &&& 0xFFFF).toUInt16.toNat = w.toNat % 2 ^ 16 := by
    rw [UInt32.toNat_toUInt16, hmask, Nat.mod_mod]
  have hsign := BitVec.toInt_eq_toNat_cond (w &&& 0xFFFF).toUInt16.toBitVec
  rw [signed16, ← hlow]
  show (w &&& 0xFFFF).toUInt16.toBitVec.toInt = _
  rw [hsign]
  show (if 2 * (w &&& 0xFFFF).toUInt16.toNat < 2 ^ 16 then _ else _) = _
  split
  · rw [if_pos (by omega)]
    rfl
  · rw [if_neg (by omega)]
    rfl

theorem toNat_half_toUInt16 (w : UInt32) : (w / 2).toUInt16.toNat = w.toNat / 2 % 2 ^ 16 := by
  rw [UInt32.toNat_toUInt16, UInt32.toNat_div]
  rfl

theorem toNat_half_toUInt8 (w : UInt32) : (w / 2).toUInt8.toNat = w.toNat / 2 % 2 ^ 8 := by
  rw [UInt32.toNat_toUInt8, UInt32.toNat_div]
  rfl

theorem toNat_masked_half (w : UInt32) :
    ((w &&& 0xFF) / 2).toUInt8.toNat = w.toNat % 2 ^ 8 / 2 := by
  have hmask : (w &&& 0xFF).toNat = w.toNat % 2 ^ 8 := by
    rw [UInt32.toNat_and]
    exact Nat.and_two_pow_sub_one_eq_mod w.toNat 8
  rw [toNat_half_toUInt8, hmask]
  omega

theorem some_eq_exactValue {typeId : UInt8} {value : List UInt8} {v : Int} :
    some v = exactValue typeId value ↔
      InRange typeId (scaledValue typeId value) ∧ v = scaledValue typeId value := by
  unfold exactValue
  split
  · rename_i hin
    rw [Option.some_inj, and_iff_right hin]
  · rename_i hout
    constructor
    · intro h
      cases h
    · intro h
      exact absurd h.1 hout

/-- The sixteen low bits, read with a sign, are the number if and only if it is small. -/
theorem signed16_mod_iff {n : Nat} :
    InRange 0x00 (n : Int) ∧ signed16 (n % 2 ^ 16) = n ↔ n < 2 ^ 15 := by
  simp only [InRange, rangeOf]
  unfold signed16
  split
  all_goals omega

theorem signed16_inRange {n : Nat} (h : n < 2 ^ 16) : InRange 0x00 (signed16 n) := by
  simp only [InRange, rangeOf]
  unfold signed16
  split
  all_goals omega

theorem temperature_iff (data : SensorData) {value : List UInt8} (hlen : value.length ≤ 4) :
    (applyField data 0x00 value.length (leValue value)).measurement 0x00 =
        exactValue 0x00 value ↔ Fits 0x00 value := by
  show some ((leValue value &&& 0xFFFF).toUInt16.toInt16.toInt) = _ ↔ _
  rw [some_eq_exactValue, toInt_lowHalf, toNat_leValue hlen, scaledValue, Fits]
  by_cases htwo : value.length = 2
  · have hbound : leNat value < 2 ^ 16 := by
      have hlt := leNat_lt value
      rw [htwo] at hlt
      exact hlt
    rw [if_pos htwo, Nat.mod_eq_of_lt hbound]
    exact ⟨fun _ => Or.inl ⟨rfl, htwo⟩, fun _ => ⟨signed16_inRange hbound, rfl⟩⟩
  · rw [if_neg htwo, signed16_mod_iff, or_iff_right (fun h => htwo h.2)]
    rfl

/-- An unsigned measurement `v` of a field with the scaled value `n`. -/
theorem unsigned_iff {typeId : UInt8} {value : List UInt8} {v n bound : Nat}
    (hne : typeId ≠ 0x00) (hrange : rangeOf typeId = (0, (bound : Int)))
    (hscaled : scaledValue typeId value = n)
    (hv : n < bound ∧ v = n ↔ leNat value < capacity typeId) :
    some (v : Int) = exactValue typeId value ↔ Fits typeId value := by
  rw [some_eq_exactValue, InRange, hrange, hscaled, Fits, or_iff_right (fun h => hne h.1), ← hv]
  dsimp only
  omega

/-- A measurement is exact if and only if its field fits. -/
theorem measurement_applyField_iff (data : SensorData) {typeId : UInt8} {value : List UInt8}
    (htype : typeId ∈ scaledTypes) (hlen : value.length ≤ 4) :
    (applyField data typeId value.length (leValue value)).measurement typeId =
        exactValue typeId value ↔ Fits typeId value := by
  have hnat := toNat_leValue hlen
  simp only [scaledTypes, List.mem_cons, List.not_mem_nil, or_false] at htype
  rcases htype with rfl | rfl | rfl | rfl | rfl | rfl
  · exact temperature_iff data hlen
  · have hcap : capacity 0x01 = 2 ^ 17 := rfl
    apply @unsigned_iff 0x01 value _ (leNat value / 2) (2 ^ 16) (by decide) rfl rfl
    rw [hcap, toNat_half_toUInt16, hnat]
    omega
  · have hcap : capacity 0x02 = 2 ^ 9 := rfl
    apply @unsigned_iff 0x02 value _ (leNat value / 2) (2 ^ 8) (by decide) rfl rfl
    rw [hcap, toNat_half_toUInt8, hnat]
    omega
  · have hcap : capacity 0x04 = 2 ^ 16 := rfl
    apply @unsigned_iff 0x04 value _ (leNat value) (2 ^ 16) (by decide) rfl rfl
    rw [hcap, UInt32.toNat_toUInt16, hnat]
    omega
  · have hcap : capacity 0x05 = 2 ^ 16 := rfl
    apply @unsigned_iff 0x05 value _ (leNat value) (2 ^ 16) (by decide) rfl rfl
    rw [hcap, UInt32.toNat_toUInt16, hnat]
    omega
  · have hcap : capacity 0x06 = 2 ^ 8 := rfl
    apply @unsigned_iff 0x06 value _ (leNat value / 2) (2 ^ 8) (by decide) rfl rfl
    rw [hcap, toNat_masked_half, hnat]
    omega

/-! ## Values of a report -/

/-- A complete field of fixed size has at most four value bytes. -/
theorem length_of_fixedField {unit value : List UInt8} {typeId : UInt8}
    (hcomplete : CompleteField unit) (h : fixedField unit = some (typeId, value)) :
    value.length ≤ 4 := by
  cases hcomplete with
  | commissioning header block hkind hlen =>
    rw [fixedField, if_pos (Or.inl hkind)] at h
    cases h
  | varLen header len rest hno hkind hlen =>
    rw [fixedField, if_pos (Or.inr hkind)] at h
    cases h
  | fixed header rest hno hkind hlen =>
    rw [fixedField, if_neg (fun hor => hor.elim hno hkind)] at h
    cases h
    have hbits : sizeBitsOf header < 3 := sizeBitsOf_lt fun hthree => hkind (Or.inl hthree)
    have hfour : 2 ^ (sizeBitsOf header).toNat ≤ 2 ^ 2 :=
      Nat.pow_le_pow_right (by omega) (Nat.le_of_lt_succ hbits)
    omega

/-- The last field of a type, seen from that field. -/
theorem lastOfType_split {before after : List FixedField} {typeId : UInt8} {value : List UInt8}
    (hlast : ∀ field ∈ after, field.1 ≠ typeId) :
    lastOfType (before ++ (typeId, value) :: after) typeId = some value := by
  have hafter : after.filter (fun field => field.1 == typeId) = [] := by
    apply List.filter_eq_nil_iff.mpr
    intro field hfield
    simpa using hlast field hfield
  rw [lastOfType, List.filter_append, List.filter_cons_of_pos (by simp), hafter,
    List.getLast?_concat]
  rfl

/-- A measurement comes from the last field of its type alone. -/
theorem measurement_reportOf (fields : List FixedField) {typeId : UInt8}
    (htype : typeId ∈ scaledTypes) :
    (reportOf fields).measurement typeId = (lastOfType fields typeId).bind fun value =>
      (applyField {} typeId value.length (leValue value)).measurement typeId := by
  simp only [scaledTypes, List.mem_cons, List.not_mem_nil, or_false] at htype
  rcases htype with rfl | rfl | rfl | rfl | rfl | rfl
  all_goals
    simp only [SensorData.measurement, reportOf, Option.map_map]
    cases lastOfType fields _ with
    | none => rfl
    | some value => rfl

theorem measurement_split_iff (before : List FixedField) {after : List FixedField}
    {typeId : UInt8} {value : List UInt8} (htype : typeId ∈ scaledTypes) (hlen : value.length ≤ 4)
    (hlast : ∀ field ∈ after, field.1 ≠ typeId) :
    (reportOf (before ++ (typeId, value) :: after)).measurement typeId =
      exactValue typeId value ↔ Fits typeId value := by
  rw [measurement_reportOf _ htype, lastOfType_split hlast, Option.bind_some]
  exact measurement_applyField_iff {} htype hlen

/-- **Sensor values.** Of every accepted telegram and every complete field of a scaled type in
it: the measurement the field sets is the full value of the field with the documented scaling,
and missing if the measurement cannot hold that value, if and only if the field fits its type.
The same is true of the report that is delivered, for the last field of a type. -/
theorem sensor_value (callbacks : EnoceanCallbacks) (crypto : CryptoBackend)
    (device : EnoceanDevice) (p : Span) (hok : SensorAdmissible device p)
    (hauth : crypto (decryptCall device p) = true) {fields : List (List UInt8)}
    {tail : List UInt8} (hsplit : FieldSplit (fieldBytes p) fields tail) :
    let r := handleSensor callbacks crypto device p
    let report := reportOf (fields.filterMap fixedField)
    (r.val.1 = true ∧ events r = if callbacks.sensor then
      [.sensor { device with seqNum := seqOf p } report none 0] else []) ∧
    ∀ before typeId value after,
      fields.filterMap fixedField = before ++ (typeId, value) :: after → typeId ∈ scaledTypes →
      ((reportOf (before ++ [(typeId, value)])).measurement typeId = exactValue typeId value ↔
        Fits typeId value) ∧
      ((∀ field ∈ after, field.1 ≠ typeId) →
        (report.measurement typeId = exactValue typeId value ↔ Fits typeId value)) := by
  intro r report
  refine ⟨handleSensor_accepted callbacks crypto hok hauth hsplit, ?_⟩
  intro before typeId value after hfields htype
  have hlen : value.length ≤ 4 := by
    have hmem : (typeId, value) ∈ fields.filterMap fixedField := by
      rw [hfields]
      exact List.mem_append_right before List.mem_cons_self
    obtain ⟨unit, hunit, hfixed⟩ := List.mem_filterMap.mp hmem
    exact length_of_fixedField (hsplit.complete unit hunit) hfixed
  refine ⟨measurement_split_iff before htype hlen (fun field hfield => by cases hfield), ?_⟩
  intro hlast
  have hiff := measurement_split_iff before htype hlen hlast
  rw [← hfields] at hiff
  exact hiff

/-- A temperature of two bytes, and a light of four bytes that does not fit. -/
def wideTelegram : Span :=
  .ofList ([2, 0, 0, 0] ++ [0x40, 0xC4, 0x09] ++ [0x84, 5, 0, 1, 0] ++ [0xA, 0xB, 0xC, 0xD])

theorem fieldSplit_wideTelegram :
    FieldSplit (fieldBytes wideTelegram) [[0x40, 0xC4, 0x09], [0x84, 5, 0, 1, 0]] [] :=
  fieldSplit_iff.mpr ⟨by decide, by decide, by decide⟩

theorem admissible_wideTelegram :
    SensorAdmissible { type := .sensor, active := true } wideTelegram := by
  decide

/-- The temperature of this telegram is exact. -/
theorem sensor_value_temperature :
    (reportOf ([[0x40, 0xC4, 0x09], [0x84, 5, 0, 1, 0]].filterMap fixedField)).measurement 0x00 =
      exactValue 0x00 [0xC4, 0x09] := by
  obtain ⟨-, hvalues⟩ := sensor_value ⟨true, true, true⟩ (fun _ => true) _ wideTelegram
    admissible_wideTelegram rfl fieldSplit_wideTelegram
  obtain ⟨-, hlast⟩ := hvalues [] 0x00 [0xC4, 0x09] [(0x04, [5, 0, 1, 0])] rfl (by decide)
  exact (hlast (by decide)).mpr (by decide)

/-- The light of this telegram is 65541 lux. It does not fit and is reported as 5 lux. -/
theorem not_sensor_value_wide_light :
    let report : SensorData := { temperatureCdeg := some 2500, lightSolarCell := some 5 }
    events (handleSensor ⟨true, true, true⟩ (fun _ => true) { type := .sensor, active := true }
      wideTelegram) = [.sensor { type := .sensor, active := true, seqNum := 2 } report none 0] ∧
    scaledValue 0x04 [5, 0, 1, 0] = 65541 ∧
    report.measurement 0x04 ≠ exactValue 0x04 [5, 0, 1, 0] := by
  intro report
  obtain ⟨-, hevents⟩ := handleSensor_accepted ⟨true, true, true⟩ (fun _ => true)
    admissible_wideTelegram rfl fieldSplit_wideTelegram
  have hseq : seqOf wideTelegram = 2 := by decide +kernel
  have hdata : reportOf ([[0x40, 0xC4, 0x09], [0x84, 5, 0, 1, 0]].filterMap fixedField) =
      report := by
    decide +kernel
  rw [hseq, hdata] at hevents
  exact ⟨hevents, by decide, by decide⟩

end EnoceanCore.Enocean
