import EnoceanCore.Enocean.SensorFields

/-!
# Measurements

Each measurement of a report is decoded from the last complete field of its type (`reportOf`).
`foldl_applyUnit` says so of the loop, by induction from its last field, and `sensor_report`
of every accepted telegram.
-/

namespace EnoceanCore.Enocean

open Lib

/-! ## The last field of a type -/

/-- The fields of fixed size, by type and value. -/
abbrev FixedField : Type := UInt8 × List UInt8

/-- The value of the last field of a type. -/
def lastOfType (fields : List FixedField) (typeId : UInt8) : Option (List UInt8) :=
  (fields.filter fun field => field.1 == typeId).getLast?.map Prod.snd

/-- The value of the last acceleration field with four value bytes. -/
def lastAcceleration (fields : List FixedField) : Option (List UInt8) :=
  (fields.filter fun field => field.1 == 0x0A && field.2.length == 4).getLast?.map Prod.snd

/-- The report of these fields. -/
def reportOf (fields : List FixedField) : SensorData where
  temperatureCdeg := (lastOfType fields 0x00).map fun value =>
    (leValue value &&& 0xFFFF).toUInt16.toInt16
  batteryVoltage := (lastOfType fields 0x01).map fun value => (leValue value / 2).toUInt16
  energyLvl := (lastOfType fields 0x02).map fun value => (leValue value / 2).toUInt8
  lightSolarCell := (lastOfType fields 0x04).map fun value => (leValue value).toUInt16
  lightSensor := (lastOfType fields 0x05).map fun value => (leValue value).toUInt16
  humidity := (lastOfType fields 0x06).map fun value => ((leValue value &&& 0xFF) / 2).toUInt8
  accelStatus := (lastAcceleration fields).map fun value => (leValue value >>> 30).toUInt8
  accelXCg := (lastAcceleration fields).map fun value => accelAxis (leValue value) 20
  accelYCg := (lastAcceleration fields).map fun value => accelAxis (leValue value) 10
  accelZCg := (lastAcceleration fields).map fun value => accelAxis (leValue value) 0
  occupancy := (lastOfType fields 0x20).map fun value => leValue value == 0x02
  contact := (lastOfType fields 0x23).map fun value => (leValue value &&& 0xFF).toUInt8 == 0x02

/-- The types of the measurements. -/
def measuredTypes : List UInt8 := [0x00, 0x01, 0x02, 0x04, 0x05, 0x06, 0x0A, 0x20, 0x23]

section Last

variable (fields : List FixedField) (typeId : UInt8) (value : List UInt8)

theorem lastOfType_concat (other : UInt8) :
    lastOfType (fields ++ [(typeId, value)]) other =
      if typeId = other then some value else lastOfType fields other := by
  rw [lastOfType, List.filter_append]
  by_cases h : typeId = other
  · rw [if_pos h, List.filter_cons_of_pos (by simpa using h), List.filter_nil,
      List.getLast?_concat]
    rfl
  · rw [if_neg h, List.filter_cons_of_neg (by simpa using h), List.filter_nil, List.append_nil]
    rfl

theorem lastAcceleration_concat :
    lastAcceleration (fields ++ [(typeId, value)]) =
      if typeId = 0x0A ∧ value.length = 4 then some value else lastAcceleration fields := by
  rw [lastAcceleration, List.filter_append]
  by_cases h : typeId = 0x0A ∧ value.length = 4
  · rw [if_pos h, List.filter_cons_of_pos (by simpa using h), List.filter_nil,
      List.getLast?_concat]
    rfl
  · rw [if_neg h, List.filter_cons_of_neg (by simpa using h), List.filter_nil, List.append_nil]
    rfl

/-- One more field changes the measurements of its type. -/
theorem reportOf_concat :
    reportOf (fields ++ [(typeId, value)]) =
      applyField (reportOf fields) typeId value.length (leValue value) := by
  unfold applyField
  split
  case h_7 =>
    by_cases hlen : value.length = 4
    · rw [if_pos hlen]
      simp [reportOf, lastOfType_concat, lastAcceleration_concat, hlen]
    · rw [if_neg hlen]
      simp [reportOf, lastOfType_concat, lastAcceleration_concat, hlen]
  all_goals simp_all [reportOf, lastOfType_concat, lastAcceleration_concat]

end Last

/-- The loop decodes each measurement from the last field of its type. -/
theorem foldl_applyUnit (units : List (List UInt8)) :
    units.foldl applyUnit {} = reportOf (units.filterMap fixedField) := by
  induction units using List.reverseRecOn with
  | nil => rfl
  | append_singleton units unit ih =>
    rw [List.foldl_append, List.foldl_cons, List.foldl_nil, ih, List.filterMap_append, applyUnit]
    cases hfixed : fixedField unit with
    | none =>
      rw [List.filterMap_cons_none hfixed, List.filterMap_nil, List.append_nil]
    | some field =>
      rw [List.filterMap_cons_some hfixed, List.filterMap_nil, reportOf_concat]

/-! ## Properties of reports -/

theorem filter_filter_of_imp {fields : List FixedField} {p q : FixedField → Bool}
    (h : ∀ field, p field = true → q field = true) :
    (fields.filter q).filter p = fields.filter p := by
  rw [List.filter_filter]
  apply List.filter_congr
  intro field _
  cases hp : p field with
  | false => rfl
  | true => rw [h field hp, Bool.and_true]

/-- A field of another type does not count. -/
theorem reportOf_filter (fields : List FixedField) :
    reportOf (fields.filter fun field => measuredTypes.contains field.1) = reportOf fields := by
  have hlast : ∀ typeId, measuredTypes.contains typeId = true →
      lastOfType (fields.filter fun field => measuredTypes.contains field.1) typeId =
        lastOfType fields typeId := by
    intro typeId hmem
    rw [lastOfType, filter_filter_of_imp]
    · rfl
    · intro field hfield
      rw [eq_of_beq hfield]
      exact hmem
  have haccel : lastAcceleration (fields.filter fun field => measuredTypes.contains field.1) =
      lastAcceleration fields := by
    rw [lastAcceleration, filter_filter_of_imp]
    · rfl
    · intro field hfield
      rw [eq_of_beq (Bool.and_eq_true_iff.mp hfield).1]
      rfl
  rw [reportOf, haccel, hlast 0x00 rfl, hlast 0x01 rfl, hlast 0x02 rfl, hlast 0x04 rfl,
    hlast 0x05 rfl, hlast 0x06 rfl, hlast 0x20 rfl, hlast 0x23 rfl]
  rfl

/-- The four parts of an acceleration come together. -/
theorem accel_isSome (fields : List FixedField) :
    (reportOf fields).accelXCg.isSome = (reportOf fields).accelStatus.isSome ∧
      (reportOf fields).accelYCg.isSome = (reportOf fields).accelStatus.isSome ∧
      (reportOf fields).accelZCg.isSome = (reportOf fields).accelStatus.isSome := by
  simp only [reportOf, Option.isSome_map, and_self]

/-- The bytes between the sequence number and the tag. -/
def fieldBytes (p : Span) : List UInt8 := (p.bytes.take (p.size - kTagLen)).drop kSensorDataOffset

/-- The view the loop is given. -/
def fieldSpan (p : Span) : Span := p.slice kSensorDataOffset (p.size - kTagLen - kSensorDataOffset)

theorem bytes_fieldSpan {p : Span} (hsize : kDataPayloadMin ≤ p.size) :
    (fieldSpan p).bytes = fieldBytes p := by
  simp only [kDataPayloadMin] at hsize
  rw [fieldSpan, fieldBytes, List.drop_take, Span.bytes_slice p]
  simp only [kSensorDataOffset, kTagLen]
  omega

/-- The report of a payload is that of its fields. -/
theorem sensorDataOf_eq {p : Span} {fields : List (List UInt8)} {tail : List UInt8}
    (hsize : kDataPayloadMin ≤ p.size) (h : FieldSplit (fieldBytes p) fields tail) :
    sensorDataOf p = reportOf (fields.filterMap fixedField) := by
  obtain ⟨hfields, -⟩ := (fieldSplit_iff.mp h).unique (Framing.splits_split (fieldBytes p))
  rw [← hfields, ← foldl_applyUnit, ← bytes_fieldSpan hsize, ← val_sensorLoop]
  rfl

/-- An accepted telegram is reported once, with the report of its fields. -/
theorem handleSensor_accepted (callbacks : EnoceanCallbacks) (crypto : CryptoBackend)
    {device : EnoceanDevice} {p : Span} (hok : SensorAdmissible device p)
    (hauth : crypto (decryptCall device p) = true) {fields : List (List UInt8)}
    {tail : List UInt8} (hsplit : FieldSplit (fieldBytes p) fields tail) :
    (handleSensor callbacks crypto device p).val.1 = true ∧
      events (handleSensor callbacks crypto device p) = if callbacks.sensor then
        [.sensor { device with seqNum := seqOf p } (reportOf (fields.filterMap fixedField)) none 0]
      else [] := by
  cases handleSensor_outcome callbacks crypto device p with
  | reject hno => exact absurd hok hno
  | forged _ hrefused =>
    rw [hauth] at hrefused
    cases hrefused
  | undelivered _ _ hno => exact absurd trivial hno
  | deliver _ _ _ hval _ hevents =>
    refine ⟨congrArg Prod.fst hval, ?_⟩
    rw [sensorEvent, sensorDataOf_eq hok.1 hsplit] at hevents
    exact hevents

/-- **Sensor reports.** Every byte string splits in one way into complete fields and a tail that
is empty or incomplete. An accepted telegram, with any bytes between the sequence number and
the tag, is reported once, with each measurement decoded from the last complete field of its
type and missing if there is none; fields of other types do not matter, and the four parts of an
acceleration come together. The loop reads nothing but these bytes. -/
theorem sensor_report (callbacks : EnoceanCallbacks) (crypto : CryptoBackend)
    (device : EnoceanDevice) (p : Span) (hok : SensorAdmissible device p)
    (hauth : crypto (decryptCall device p) = true) :
    let r := handleSensor callbacks crypto device p
    (∀ bytes : List UInt8,
      ∃! s : List (List UInt8) × List UInt8, FieldSplit bytes s.1 s.2) ∧
    (∀ fields tail, FieldSplit (fieldBytes p) fields tail →
      let report := reportOf (fields.filterMap fixedField)
      r.val.1 = true ∧
      events r = (if callbacks.sensor then
        [.sensor { device with seqNum := seqOf p } report none 0] else []) ∧
      report = reportOf ((fields.filterMap fixedField).filter
        fun field => measuredTypes.contains field.1) ∧
      report.accelXCg.isSome = report.accelStatus.isSome ∧
      report.accelYCg.isSome = report.accelStatus.isSome ∧
      report.accelZCg.isSome = report.accelStatus.isSome) ∧
    (fieldSpan p).bytes = fieldBytes p ∧
    (sensorLoop (fieldSpan p) 0 {}).Every
      (fun e => ∃ i < (fieldSpan p).size, e = .access (.read (fieldSpan p).extent i)) ∧
    ∀ a, Action.access a ∈ r.log → a.InBounds := by
  intro r
  refine ⟨existsUnique_fieldSplit, fun fields tail hsplit => ?_, bytes_fieldSpan hok.1, ?_, ?_⟩
  · intro report
    have hfilter : report = reportOf ((fields.filterMap fixedField).filter
        fun field => measuredTypes.contains field.1) := (reportOf_filter _).symm
    obtain ⟨hval, hevents⟩ := handleSensor_accepted callbacks crypto hok hauth hsplit
    exact ⟨hval, hevents, hfilter, accel_isSome _⟩
  · exact sensorLoop_every (fun i hi => ⟨i, hi, rfl⟩) 0 {}
  · intro a ha
    exact (handleSensor_confined callbacks crypto device (Extent.Within.refl p.extent) _ ha a
      rfl).1

/-- A temperature, a humidity, the temperature again, and a field that is cut off. -/
theorem sensor_report_twice :
    events (handleSensor ⟨true, true, true⟩ (fun _ => true) { type := .sensor, active := true }
      (.ofList ([2, 0, 0, 0] ++ [0x40, 0, 0] ++ [0x06, 100] ++ [0x40, 0xC4, 0x09] ++ [0x41, 5] ++
        [0xA, 0xB, 0xC, 0xD]))) =
      [.sensor { type := .sensor, active := true, seqNum := 2 }
        { temperatureCdeg := some 2500, humidity := some 50 } none 0] := by
  let p := Span.ofList ([2, 0, 0, 0] ++ [0x40, 0, 0] ++ [0x06, 100] ++ [0x40, 0xC4, 0x09] ++
    [0x41, 5] ++ [0xA, 0xB, 0xC, 0xD])
  have hsplit : FieldSplit (fieldBytes p) [[0x40, 0, 0], [0x06, 100], [0x40, 0xC4, 0x09]]
      [0x41, 5] :=
    fieldSplit_iff.mpr ⟨by decide, by decide, by decide⟩
  obtain ⟨-, hreport, -⟩ := sensor_report ⟨true, true, true⟩ (fun _ => true)
    { type := .sensor, active := true } p (by decide) rfl
  have hseq : seqOf p = 2 := by decide +kernel
  have hdata : reportOf (List.filterMap fixedField [[0x40, 0, 0], [0x06, 100], [0x40, 0xC4, 0x09]])
      = { temperatureCdeg := some 2500, humidity := some 50 } := by decide +kernel
  have hevents := (hreport _ _ hsplit).2.1
  rw [hseq, hdata] at hevents
  exact hevents

end EnoceanCore.Enocean
