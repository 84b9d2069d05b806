import EnoceanCore.Enocean.SensorReport
import EnoceanCore.Enocean.Admission
import EnoceanCore.Application.Broadcasts
import EnoceanCore.Logging.Logger

/-!
# What the application prints

`on_button`, `on_sensor` and `on_commissioned` print what they are told: a header with the address
of the device, and for a sensor one labelled line for each measurement there is (`linesOf`). A
value is read out of an `std::optional` with `*`, which is undefined for an empty one
(`none`); for the axes of an acceleration nothing but the driver prevents that.

In every run of the driver every report is printed, no line is cut or replaced on the way, and the
lines determine what was reported (`application_log`).
-/

namespace EnoceanCore.Application

open Lib Enocean Logging

/-! ## Texts -/

/-- The most significant byte of an address comes first. -/
def addrText (a : Address) : Text :=
  hexByte (a.get 5) ++ ':' :: (hexByte (a.get 4) ++ ':' :: (hexByte (a.get 3) ++
    ':' :: (hexByte (a.get 2) ++ ':' :: (hexByte (a.get 1) ++ ':' :: hexByte (a.get 0)))))

/-- `%c%d.%02d` of a temperature; the absolute value is a 16-bit one. -/
def temperatureText (t : Int16) : Text :=
  let ta := if t < 0 then -t else t
  (if t < 0 then '-' else '+') ::
    (signed (ta / 100).toInt ++ '.' :: signedPadded 2 (ta % 100).toInt)

def axesText (x y z : Int16) : Text :=
  "X=".toList ++ (signed x.toInt ++ ' ' :: ("Y=".toList ++ (signed y.toInt ++
    ' ' :: ("Z=".toList ++ signed z.toInt))))

/-! ## Callbacks -/

def onButton (device : EnoceanDevice) (action : ButtonAction) (changed : UInt8) : List Text :=
  ["EnOcean button ".toList ++ ((if action = .press then "PRESS" else "RELEASE").toList ++
    (" | addr ".toList ++ (addrText device.bleAddr.addr ++
      (" | buttons 0x".toList ++ hexByte changed))))]

/-- The line with the axes: `none` if an axis is read that is not there. -/
def axes (data : SensorData) : Option (Option Text) :=
  match data.accelStatus with
  | none => some none
  | some status =>
    if status = 3 then some none
    else do
      let x ← data.accelXCg
      let y ← data.accelYCg
      let z ← data.accelZCg
      return some (axesText x y z)

def boolText (yes no : String) (b : Bool) : Text := (if b then yes else no).toList

/-- The labels with their values, in the order in which they are printed. -/
def measurements (data : SensorData) (axes : Option Text) : List Entry := [
  ("  Temp (°C)    : ".toList, data.temperatureCdeg.map temperatureText),
  ("  Humidity (%) : ".toList, data.humidity.map fun v => decimal v.toNat),
  ("  Occupancy    : ".toList, data.occupancy.map (boolText "yes" "no")),
  ("  Light (lx)   : ".toList, data.lightSensor.map fun v => decimal v.toNat),
  ("  Solar (lx)   : ".toList, data.lightSolarCell.map fun v => decimal v.toNat),
  ("  Energy (%)   : ".toList, data.energyLvl.map fun v => decimal v.toNat),
  ("  Battery (mV) : ".toList, data.batteryVoltage.map fun v => decimal v.toNat),
  ("  Contact      : ".toList, data.contact.map (boolText "closed" "open")),
  ("  Accel status : ".toList, data.accelStatus.map fun v => decimal v.toNat),
  ("  Accel (0.01g): ".toList, axes)]

def onSensor (device : EnoceanDevice) (data : SensorData) : Option (List Text) := do
  let axes ← axes data
  return ("EnOcean sensor | addr ".toList ++ addrText device.bleAddr.addr) ::
    labelled (measurements data axes)

def onCommissioned (device : EnoceanDevice) : List Text :=
  ["EnOcean device COMMISSIONED: ".toList ++ addrText device.bleAddr.addr]

/-- The lines of a callback. -/
def linesOf : Event → Option (List Text)
  | .button device action changed _ _ => some (onButton device action changed)
  | .sensor device data _ _ => onSensor device data
  | .commissioned device => some (onCommissioned device)

/-- The lines of the callbacks of a run. -/
def printed : List Event → Option (List (List Text))
  | [] => some []
  | e :: es => do
    let lines ← linesOf e
    let rest ← printed es
    return lines :: rest

/-! ## What a reader can know -/

/-- What is printed of a callback. -/
inductive Shown where
  | button (addr : Address) (action : ButtonAction) (changed : UInt8)
  | sensor (addr : Address) (data : SensorData)
  | commissioned (addr : Address)
  deriving DecidableEq

/-- The axes are not printed if the acceleration sensor is disabled. -/
def shownData (data : SensorData) : SensorData :=
  if data.accelStatus = none ∨ data.accelStatus = some 3 then
    { data with accelXCg := none, accelYCg := none, accelZCg := none }
  else data

def shown : Event → Shown
  | .button device action changed _ _ => .button device.bleAddr.addr action changed
  | .sensor device data _ _ => .sensor device.bleAddr.addr (shownData data)
  | .commissioned device => .commissioned device.bleAddr.addr

/-! ## Temperatures -/

/-- The hundredths of a degree that a text names. -/
def readTemperature : Text → Option Int
  | [] => none
  | sign :: text => do
    let whole ← readDecimal (text.takeWhile (· ≠ '.'))
    let hundredths ← readDecimal ((text.dropWhile (· ≠ '.')).drop 1)
    let value : Int := 100 * whole + hundredths
    return if sign = '-' then -value else value

/-- A text in front of the separator is read. -/
theorem read_around {t u : Text} (ht : '.' ∉ t) :
    (t ++ '.' :: u).takeWhile (· ≠ '.') = t ∧ ((t ++ '.' :: u).dropWhile (· ≠ '.')).drop 1 = u := by
  induction t with
  | nil => exact ⟨rfl, rfl⟩
  | cons c t ih =>
    have hc : c ≠ '.' := fun h => ht (h ▸ List.mem_cons_self)
    obtain ⟨htake, hdrop⟩ := ih fun h => ht (List.mem_cons_of_mem c h)
    rw [List.cons_append, List.takeWhile_cons_of_pos (by simpa using hc), htake,
      List.dropWhile_cons_of_pos (by simpa using hc)]
    exact ⟨rfl, hdrop⟩

theorem dot_notMem_decimal (n : Nat) : '.' ∉ decimal n :=
  fun h => absurd (isDigit_of_mem_decimal h) (by decide)

theorem toInt_abs {t : Int16} (h : t ≠ Int16.minValue) :
    (if t < 0 then -t else t).toInt = t.toInt.natAbs := by
  have hlow := t.le_toInt
  have hhigh := t.toInt_lt
  have hne : t.toInt ≠ -2 ^ 15 := fun heq => h (Int16.toInt.inj heq)
  by_cases hneg : t < 0
  · have hneg' : t.toInt < 0 := Int16.lt_iff_toInt_lt.mp hneg
    rw [if_pos hneg, Int16.toInt_neg, Int.bmod_eq_of_le (by omega) (by omega)]
    omega
  · have hpos : ¬ t.toInt < 0 := fun h => hneg (Int16.lt_iff_toInt_lt.mpr h)
    rw [if_neg hneg]
    omega

/-- Every temperature is read as what it is, but for the lowest, whose absolute value has no 16-bit
number. -/
theorem readTemperature_temperatureText (t : Int16) :
    readTemperature (temperatureText t) = if t = Int16.minValue then none else some t.toInt := by
  by_cases hmin : t = Int16.minValue
  · subst hmin
    decide
  rw [if_neg hmin]
  have habs := toInt_abs hmin
  have hlow := t.le_toInt
  have hhigh := t.toInt_lt
  simp only [temperatureText]
  generalize (if t < 0 then -t else t) = ta at habs
  have hdiv : (ta / 100).toInt = ((t.toInt.natAbs / 100 : Nat) : Int) := by
    rw [Int16.toInt_div_of_ne_right _ _ (by decide), habs]
    rfl
  have hmod : (ta % 100).toInt = ((t.toInt.natAbs % 100 : Nat) : Int) := by
    rw [Int16.toInt_mod, habs]
    rfl
  rw [hdiv, hmod]
  obtain ⟨htake, hdrop⟩ := @read_around (decimal (t.toInt.natAbs / 100))
    (signedPadded 2 ((t.toInt.natAbs % 100 : Nat) : Int)) (dot_notMem_decimal _)
  have hsigned : signed ((t.toInt.natAbs / 100 : Nat) : Int) = decimal (t.toInt.natAbs / 100) := rfl
  have hpadded : readDecimal (signedPadded 2 ((t.toInt.natAbs % 100 : Nat) : Int)) =
      some (t.toInt.natAbs % 100) := readDecimal_zeros _ _
  rw [hsigned, readTemperature, htake, hdrop, readDecimal_decimal, hpadded]
  by_cases hneg : t < 0
  · have hneg' : t.toInt < 0 := Int16.lt_iff_toInt_lt.mp hneg
    simp only [if_pos hneg, Option.bind_eq_bind, Option.bind_some, Option.pure_def, if_true]
    congr 1
    omega
  · have hpos : ¬ t.toInt < 0 := fun h => hneg (Int16.lt_iff_toInt_lt.mpr h)
    have hplus : ¬ '+' = '-' := by decide
    simp only [if_neg hneg, Option.bind_eq_bind, Option.bind_some, Option.pure_def, if_neg hplus]
    congr 1
    omega

theorem temperatureText_injective : Function.Injective temperatureText := by
  intro t u h
  have hread := congrArg readTemperature h
  rw [readTemperature_temperatureText, readTemperature_temperatureText] at hread
  by_cases ht : t = Int16.minValue
  · by_cases hu : u = Int16.minValue
    · rw [ht, hu]
    · rw [if_pos ht, if_neg hu] at hread
      cases hread
  · by_cases hu : u = Int16.minValue
    · rw [if_neg ht, if_pos hu] at hread
      cases hread
    · rw [if_neg ht, if_neg hu] at hread
      exact Int16.toInt.inj (Option.some_inj.mp hread)

/-! ## The lines determine what is printed -/

/-- A label and an address behind it. -/
theorem addrText_append_inj {a b : Address} {rest rest' : Text}
    (h : addrText a ++ rest = addrText b ++ rest') : a = b ∧ rest = rest' := by
  simp only [addrText, List.append_assoc, List.cons_append] at h
  obtain ⟨h5, h⟩ := hexByte_append_inj h
  obtain ⟨h4, h⟩ := hexByte_append_inj (List.cons.inj h).2
  obtain ⟨h3, h⟩ := hexByte_append_inj (List.cons.inj h).2
  obtain ⟨h2, h⟩ := hexByte_append_inj (List.cons.inj h).2
  obtain ⟨h1, h⟩ := hexByte_append_inj (List.cons.inj h).2
  obtain ⟨h0, h⟩ := hexByte_append_inj (List.cons.inj h).2
  refine ⟨Vector.ext fun i hi => ?_, h⟩
  match i, hi with
  | 0, _ => exact h0
  | 1, _ => exact h1
  | 2, _ => exact h2
  | 3, _ => exact h3
  | 4, _ => exact h4
  | 5, _ => exact h5

theorem addrText_injective : Function.Injective addrText := by
  intro a b h
  have happend : addrText a ++ [] = addrText b ++ [] := by rw [h]
  exact (addrText_append_inj happend).1

theorem onButton_inj {device device' : EnoceanDevice} {action action' : ButtonAction}
    {changed changed' : UInt8}
    (h : onButton device action changed = onButton device' action' changed') :
    device.bleAddr.addr = device'.bleAddr.addr ∧ action = action' ∧ changed = changed' := by
  have hline := List.append_cancel_left (List.cons.inj h).1
  have haction : action = action' := by
    cases action <;> cases action'
    · rfl
    · exact absurd (List.cons.inj hline).1 (by decide)
    · exact absurd (List.cons.inj hline).1 (by decide)
    · rfl
  subst haction
  obtain ⟨haddr, hrest⟩ := addrText_append_inj
    (List.append_cancel_left (List.append_cancel_left hline))
  have hbyte : hexByte changed ++ [] = hexByte changed' ++ [] := by
    rw [List.append_nil, List.append_nil]
    exact List.append_cancel_left hrest
  exact ⟨haddr, rfl, (hexByte_append_inj hbyte).1⟩

theorem blank_notMem_signed (i : Int) : ' ' ∉ signed i := by
  intro h
  rcases mem_signed h with h | h
  · exact absurd h (by decide)
  · exact absurd h (by decide)

theorem axesText_inj {x y z x' y' z' : Int16} (h : axesText x y z = axesText x' y' z') :
    x = x' ∧ y = y' ∧ z = z' := by
  obtain ⟨hx, h⟩ := separator_inj (blank_notMem_signed _) (blank_notMem_signed _)
    (List.append_cancel_left h)
  obtain ⟨hy, h⟩ := separator_inj (blank_notMem_signed _) (blank_notMem_signed _)
    (List.append_cancel_left h)
  have hz := List.append_cancel_left h
  exact ⟨Int16.toInt.inj (signed_injective hx), Int16.toInt.inj (signed_injective hy),
    Int16.toInt.inj (signed_injective hz)⟩

/-- The measurements are read back from their lines. -/
theorem measurements_inj {data data' : SensorData} {axes axes' : Option Text}
    (h : labelled (measurements data axes) = labelled (measurements data' axes')) :
    measurements data axes = measurements data' axes' := by
  have hlength : ∀ e ∈ measurements data axes, e.1.length = 17 := by
    simp only [measurements, List.forall_mem_cons]
    decide
  have hnodup : ((measurements data axes).map Prod.fst).Nodup := by
    simp only [measurements, List.map_cons, List.map_nil]
    decide
  exact labelled_injective hlength hnodup rfl h

theorem boolText_injective {yes no : String} (h : yes ≠ no) :
    Function.Injective (boolText yes no) := by
  intro b b' heq
  have htext : (if b then yes else no) = (if b' then yes else no) := String.toList_inj.mp heq
  cases b <;> cases b'
  · rfl
  · exact absurd htext.symm h
  · exact absurd htext h
  · rfl

/-- What `axes` returns, if it returns. -/
theorem axes_eq_some {data : SensorData} {text : Option Text} (h : axes data = some text) :
    (data.accelStatus = none ∨ data.accelStatus = some 3) ∧ text = none ∨
      (¬ (data.accelStatus = none ∨ data.accelStatus = some 3)) ∧
        ∃ x y z, data.accelXCg = some x ∧ data.accelYCg = some y ∧ data.accelZCg = some z ∧
          text = some (axesText x y z) := by
  unfold axes at h
  cases hstatus : data.accelStatus with
  | none =>
    rw [hstatus] at h
    exact Or.inl ⟨Or.inl rfl, (Option.some_inj.mp h).symm⟩
  | some status =>
    rw [hstatus] at h
    by_cases hdisabled : status = 3
    · subst hdisabled
      exact Or.inl ⟨Or.inr rfl, (Option.some_inj.mp h).symm⟩
    · simp only [if_neg hdisabled, Option.bind_eq_bind, Option.bind_eq_some_iff,
        Option.pure_def, Option.some_inj] at h
      obtain ⟨x, hx, y, hy, z, hz, htext⟩ := h
      exact Or.inr ⟨by simpa using hdisabled, x, y, z, hx, hy, hz, htext.symm⟩

theorem onSensor_inj {device device' : EnoceanDevice} {data data' : SensorData} {lines : List Text}
    (h : onSensor device data = some lines) (h' : onSensor device' data' = some lines) :
    device.bleAddr.addr = device'.bleAddr.addr ∧ shownData data = shownData data' := by
  obtain ⟨text, haxes, hlines⟩ := Option.bind_eq_some_iff.mp h
  obtain ⟨text', haxes', hlines'⟩ := Option.bind_eq_some_iff.mp h'
  have hsame := Option.some_inj.mp (hlines.trans hlines'.symm)
  obtain ⟨hheader, hdetails⟩ := List.cons.inj hsame
  refine ⟨addrText_injective (List.append_cancel_left hheader), ?_⟩
  have hmeasured := measurements_inj hdetails
  simp only [measurements, List.cons.injEq, Prod.mk.injEq, true_and, and_true] at hmeasured
  obtain ⟨htemp, hhum, hocc, hlight, hsolar, henergy, hbattery, hcontact, hstatus, htext⟩ :=
    hmeasured
  have hdecimal8 : Function.Injective fun v : UInt8 => decimal v.toNat :=
    fun v w hvw => UInt8.toNat.inj (decimal_injective hvw)
  have hdecimal16 : Function.Injective fun v : UInt16 => decimal v.toNat :=
    fun v w hvw => UInt16.toNat.inj (decimal_injective hvw)
  replace htemp := Option.map_injective temperatureText_injective htemp
  replace hhum := Option.map_injective hdecimal8 hhum
  replace hocc := Option.map_injective (boolText_injective (by decide)) hocc
  replace hlight := Option.map_injective hdecimal16 hlight
  replace hsolar := Option.map_injective hdecimal16 hsolar
  replace henergy := Option.map_injective hdecimal8 henergy
  replace hbattery := Option.map_injective hdecimal16 hbattery
  replace hcontact := Option.map_injective (boolText_injective (by decide)) hcontact
  replace hstatus := Option.map_injective hdecimal8 hstatus
  obtain ⟨⟩ := data
  obtain ⟨⟩ := data'
  simp only at htemp hhum hocc hlight hsolar henergy hbattery hcontact hstatus
  subst htemp hhum hocc hlight hsolar henergy hbattery hcontact hstatus
  unfold shownData
  rcases axes_eq_some haxes with ⟨hhidden, -⟩ | ⟨hseen, x, y, z, hx, hy, hz, heq⟩
  · rw [if_pos hhidden, if_pos hhidden]
  · rcases axes_eq_some haxes' with ⟨hhidden, -⟩ | ⟨-, x', y', z', hx', hy', hz', heq'⟩
    · exact absurd hhidden hseen
    · rw [heq, heq'] at htext
      obtain ⟨rfl, rfl, rfl⟩ := axesText_inj (Option.some_inj.mp htext)
      simp only at hx hy hz hx' hy' hz'
      rw [if_neg hseen, if_neg hseen, hx, hy, hz, hx', hy', hz']

/-- The letter in which the headers differ. -/
def letterOf : Event → Char
  | .button .. => 'b'
  | .sensor .. => 's'
  | .commissioned _ => 'd'

def isHeader (line : Text) : Bool := line.head? == some 'E'

theorem head_of_labelled {data : SensorData} {axes : Option Text} {line : Text}
    (h : line ∈ labelled (measurements data axes)) : isHeader line = false := by
  obtain ⟨e, he, hline⟩ := List.mem_flatMap.mp h
  obtain ⟨text, -, rfl⟩ := Option.map_eq_some_iff.mp (Option.mem_toList.mp hline)
  have hhead : ∀ e ∈ measurements data axes, e.1.head? = some ' ' := by
    simp only [measurements, List.forall_mem_cons]
    decide
  rw [isHeader, List.head?_append, hhead e he]
  rfl

/-- The lines of a callback are a report. -/
theorem lines_isReport {e : Event} {lines : List Text} (h : linesOf e = some lines) :
    IsReport isHeader lines ∧
      lines.head?.map (fun line => line.getD 8 ' ') = some (letterOf e) := by
  cases e with
  | button device action changed optData optLen =>
    cases h
    exact ⟨⟨_, [], rfl, rfl, fun d hd => by cases hd⟩, rfl⟩
  | sensor device data optData optLen =>
    obtain ⟨text, -, hlines⟩ := Option.bind_eq_some_iff.mp h
    cases hlines
    exact ⟨⟨_, _, rfl, rfl, fun d hd => head_of_labelled hd⟩, rfl⟩
  | commissioned device =>
    cases h
    exact ⟨⟨_, [], rfl, rfl, fun d hd => by cases hd⟩, rfl⟩

/-- Different reports print different lines. -/
theorem shown_of_lines {e e' : Event} {lines : List Text} (h : linesOf e = some lines)
    (h' : linesOf e' = some lines) : shown e = shown e' := by
  have hletter : letterOf e = letterOf e' :=
    Option.some_inj.mp ((lines_isReport h).2.symm.trans (lines_isReport h').2)
  cases e with
  | button device action changed optData optLen =>
    cases e' with
    | button device' action' changed' optData' optLen' =>
      obtain ⟨haddr, rfl, rfl⟩ := onButton_inj (Option.some_inj.mp (h.trans h'.symm))
      exact congrArg (Shown.button · action changed) haddr
    | sensor => simp [letterOf] at hletter
    | commissioned => simp [letterOf] at hletter
  | sensor device data optData optLen =>
    cases e' with
    | button => simp [letterOf] at hletter
    | sensor device' data' optData' optLen' =>
      obtain ⟨haddr, hdata⟩ := onSensor_inj h h'
      exact congrArg₂ Shown.sensor haddr hdata
    | commissioned => simp [letterOf] at hletter
  | commissioned device =>
    cases e' with
    | button => simp [letterOf] at hletter
    | sensor => simp [letterOf] at hletter
    | commissioned device' =>
      have hline := (List.cons.inj (Option.some_inj.mp (h.trans h'.symm))).1
      exact congrArg Shown.commissioned (addrText_injective (List.append_cancel_left hline))

/-! ## Sizes -/

theorem length_signed16 (v : Int16) : (signed v.toInt).length ≤ 6 := by
  have hlow := v.le_toInt
  have hhigh := v.toInt_lt
  exact length_signed_le (by decide) (by omega)

theorem length_temperatureText (t : Int16) : (temperatureText t).length ≤ 16 := by
  have hwhole := length_signed16 ((if t < 0 then -t else t) / 100)
  have hcents := length_signed16 ((if t < 0 then -t else t) % 100)
  have hpadded := length_signedPadded_le 2 ((if t < 0 then -t else t) % 100).toInt
  simp only [temperatureText, List.length_cons, List.length_append]
  omega

theorem length_axesText (x y z : Int16) : (axesText x y z).length ≤ 26 := by
  have hx := length_signed16 x
  have hy := length_signed16 y
  have hz := length_signed16 z
  show (['X', '='] ++ (signed x.toInt ++ ' ' :: (['Y', '='] ++ (signed y.toInt ++
    ' ' :: (['Z', '='] ++ signed z.toInt))))).length ≤ 26
  simp only [List.length_cons, List.length_append, List.length_nil]
  omega

/-- The values of the lines are short. -/
theorem length_value_le {data : SensorData} {text : Option Text} (h : axes data = some text) :
    ∀ e ∈ measurements data text, ∀ value ∈ e.2, value.length ≤ 26 := by
  have hmap : ∀ {α : Type} {f : α → Text} (o : Option α), (∀ v, (f v).length ≤ 26) →
      ∀ value ∈ o.map f, value.length ≤ 26 := by
    intro α f o hf value hvalue
    obtain ⟨v, -, rfl⟩ := Option.map_eq_some_iff.mp hvalue
    exact hf v
  have h8 : ∀ v : UInt8, (decimal v.toNat).length ≤ 26 := fun v =>
    length_decimal_le (by decide) (Nat.lt_trans v.toNat_lt (by decide))
  have h16 : ∀ v : UInt16, (decimal v.toNat).length ≤ 26 := fun v =>
    length_decimal_le (by decide) (Nat.lt_trans v.toNat_lt (by decide))
  have hbool : ∀ {yes no : String}, yes.toList.length ≤ 26 → no.toList.length ≤ 26 →
      ∀ b, (boolText yes no b).length ≤ 26 := by
    intro yes no hyes hno b
    cases b
    · exact hno
    · exact hyes
  simp only [measurements, List.forall_mem_cons]
  refine ⟨hmap _ fun t => Nat.le_trans (length_temperatureText t) (by decide), hmap _ h8,
    hmap _ (hbool (by decide) (by decide)), hmap _ h16, hmap _ h16, hmap _ h8, hmap _ h16,
    hmap _ (hbool (by decide) (by decide)), hmap _ h8, ?_, fun e he => by cases he⟩
  rintro value rfl
  rcases axes_eq_some h with ⟨-, hnone⟩ | ⟨-, x, y, z, -, -, -, hsome⟩
  · cases hnone
  · rw [Option.some_inj.mp hsome]
    exact length_axesText x y z

/-- A line is not longer than that of a released button. -/
theorem length_line_le {e : Event} {lines : List Text} (h : linesOf e = some lines) :
    ∀ line ∈ lines, line.length ≤ 62 := by
  cases e with
  | button device action changed optData optLen =>
    cases h
    intro line hline
    rw [List.mem_singleton.mp hline]
    cases action <;> exact Nat.le_of_ble_eq_true rfl
  | sensor device data optData optLen =>
    obtain ⟨text, haxes, hlines⟩ := Option.bind_eq_some_iff.mp h
    cases hlines
    intro line hline
    rcases List.mem_cons.mp hline with rfl | hline
    · exact Nat.le_of_ble_eq_true rfl
    · obtain ⟨e, he, hmem⟩ := List.mem_flatMap.mp hline
      obtain ⟨value, hvalue, rfl⟩ := Option.map_eq_some_iff.mp (Option.mem_toList.mp hmem)
      have hlabel : ∀ e ∈ measurements data text, e.1.length = 17 := by
        simp only [measurements, List.forall_mem_cons]
        decide
      have hshort := length_value_le haxes e he value hvalue
      rw [List.length_append, hlabel e he]
      omega
  | commissioned device =>
    cases h
    intro line hline
    rw [List.mem_singleton.mp hline]
    exact Nat.le_of_ble_eq_true rfl

/-! ## Every report is printed -/

/-- The axes are there if the status is. -/
def AxesComplete (data : SensorData) : Prop :=
  data.accelStatus.isSome →
    data.accelXCg.isSome ∧ data.accelYCg.isSome ∧ data.accelZCg.isSome

theorem AxesComplete.applyField {data : SensorData} (h : AxesComplete data) (typeId : UInt8)
    (valLen : Nat) (value : UInt32) :
    AxesComplete (Enocean.applyField data typeId valLen value) := by
  unfold Enocean.applyField
  split
  case h_7 =>
    split
    · exact fun _ => ⟨rfl, rfl, rfl⟩
    · exact h
  all_goals exact h

/-- No field of a report comes with a status and without the axes. -/
theorem axesComplete_sensorDataOf (p : Span) : AxesComplete (sensorDataOf p) := by
  have hfold : ∀ (units : List (List UInt8)) (data : SensorData), AxesComplete data →
      AxesComplete (units.foldl applyUnit data) := by
    intro units
    induction units with
    | nil => exact fun data h => h
    | cons unit units ih =>
      intro data h
      refine ih _ ?_
      unfold applyUnit
      split
      · exact h
      · exact h.applyField _ _ _
  rw [sensorDataOf, val_sensorLoop]
  exact hfold _ {} fun h => by cases h

theorem AxesComplete.isSome_axes {data : SensorData} (h : AxesComplete data) :
    (axes data).isSome = true := by
  unfold axes
  cases hstatus : data.accelStatus with
  | none => rfl
  | some status =>
    obtain ⟨hx, hy, hz⟩ := h (by rw [hstatus]; rfl)
    obtain ⟨x, hx⟩ := Option.isSome_iff_exists.mp hx
    obtain ⟨y, hy⟩ := Option.isSome_iff_exists.mp hy
    obtain ⟨z, hz⟩ := Option.isSome_iff_exists.mp hz
    by_cases hdisabled : status = 3
    · simp [hdisabled]
    · simp [hdisabled, hx, hy, hz]

/-- The callback is printed: it does not read a value that is not there. -/
def Prints (e : Event) : Prop := (linesOf e).isSome = true

theorem prints_sensorEvent (device : EnoceanDevice) (p : Span) : Prints (sensorEvent device p) := by
  obtain ⟨text, htext⟩ := Option.isSome_iff_exists.mp (axesComplete_sensorDataOf p).isSome_axes
  simp [Prints, sensorEvent, linesOf, onSensor, htext]

theorem prints_handleData (callbacks : EnoceanCallbacks) (crypto : CryptoBackend)
    (device : EnoceanDevice) (p : Span) :
    ∀ e ∈ events (handleData callbacks crypto device p), Prints e := by
  intro e he
  cases handleData_outcome callbacks crypto device p with
  | reject _ _ _ hevents =>
    rw [hevents] at he
    cases he
  | forged _ _ _ _ hevents =>
    rw [hevents] at he
    cases he
  | undelivered _ _ _ _ _ hevents =>
    rw [hevents] at he
    cases he
  | deliver _ _ _ _ _ hevents =>
    rw [hevents] at he
    rcases (mem_dataEvents callbacks device he).2 with ⟨-, rfl⟩ | ⟨-, rfl⟩
    · rfl
    · exact prints_sensorEvent device p

theorem prints_step (driver : EnoceanDriver) (op : Op) :
    ∀ e ∈ events (step driver op), Prints e := by
  intro e he
  cases op with
  | init => cases he
  | enableCommissioning => cases he
  | disableCommissioning => cases he
  | processAdvertisement crypto addr addrType advType rssi data =>
    change e ∈ events (processAdvertisement crypto driver addr addrType advType rssi data) at he
    cases processAdvertisement_outcome crypto driver addr addrType advType rssi data with
    | ignored _ _ _ _ hevents =>
      rw [hevents] at he
      cases he
    | known i _ _ _ _ _ _ hevents =>
      rw [hevents] at he
      exact prints_handleData _ _ _ _ e he
    | commissioned i _ _ _ _ _ _ _ _ hevents =>
      rw [hevents] at he
      split at he
      · rw [List.mem_singleton.mp he]
        rfl
      · cases he

/-- In every run every callback is printed. -/
theorem prints_run (driver : EnoceanDriver) (ops : List Op) :
    ∀ e ∈ events (run step driver ops), Prints e := by
  induction ops generalizing driver with
  | nil =>
    intro e he
    cases he
  | cons op ops ih =>
    intro e he
    rw [run_cons, events, Traced.proj_bind] at he
    rcases List.mem_append.mp he with he | he
    · exact prints_step driver op e he
    · exact ih _ e he

/-! ## The log -/

theorem printed_cons {e : Event} {es : List Event} {reports : List (List Text)}
    (h : printed (e :: es) = some reports) :
    ∃ lines rest, linesOf e = some lines ∧ printed es = some rest ∧ reports = lines :: rest := by
  obtain ⟨lines, hlines, h⟩ := Option.bind_eq_some_iff.mp h
  obtain ⟨rest, hrest, h⟩ := Option.bind_eq_some_iff.mp h
  exact ⟨lines, rest, hlines, hrest, (Option.some_inj.mp h).symm⟩

theorem exists_printed {es : List Event} (h : ∀ e ∈ es, Prints e) :
    ∃ reports, printed es = some reports := by
  induction es with
  | nil => exact ⟨[], rfl⟩
  | cons e es ih =>
    obtain ⟨lines, hlines⟩ := Option.isSome_iff_exists.mp (h e List.mem_cons_self)
    obtain ⟨rest, hrest⟩ := ih fun e he => h e (List.mem_cons_of_mem _ he)
    exact ⟨lines :: rest, by rw [printed, hlines, hrest]; rfl⟩

/-- Every report comes from a callback. -/
theorem mem_printed {es : List Event} {reports : List (List Text)}
    (h : printed es = some reports) : ∀ lines ∈ reports, ∃ e ∈ es, linesOf e = some lines := by
  induction es generalizing reports with
  | nil =>
    cases h
    exact fun lines hlines => by cases hlines
  | cons e es ih =>
    obtain ⟨first, rest, hfirst, hrest, rfl⟩ := printed_cons h
    intro lines hlines
    rcases List.mem_cons.mp hlines with rfl | hlines
    · exact ⟨e, List.mem_cons_self, hfirst⟩
    · obtain ⟨e', he', heq⟩ := ih hrest lines hlines
      exact ⟨e', List.mem_cons_of_mem e he', heq⟩

theorem shown_of_printed {es es' : List Event} {reports : List (List Text)}
    (h : printed es = some reports) (h' : printed es' = some reports) :
    es.map shown = es'.map shown := by
  induction es generalizing es' reports with
  | nil =>
    cases h
    cases es' with
    | nil => rfl
    | cons e' es' =>
      obtain ⟨lines, rest, -, -, hcons⟩ := printed_cons h'
      cases hcons
  | cons e es ih =>
    obtain ⟨lines, rest, hlines, hrest, rfl⟩ := printed_cons h
    cases es' with
    | nil => cases h'
    | cons e' es' =>
      obtain ⟨lines', rest', hlines', hrest', hcons⟩ := printed_cons h'
      cases hcons
      rw [List.map_cons, List.map_cons, shown_of_lines hlines hlines', ih hrest hrest']

/-- A line leaves both buffers as it was. -/
theorem line_passes {e : Event} {lines : List Text} (h : linesOf e = some lines) {line : Text}
    (hline : line ∈ lines) :
    (∀ checkSeverity : Severity → Bool, checkSeverity .info = true →
      dispatch (some checkSeverity) .info line = some (bytesOf line)) ∧
      ∀ func : List UInt8, func.length ≤ 256 →
        write .info func (bytesOf line) = (.inf, func ++ bytesOf ": ".toList ++ bytesOf line) := by
  have hlength := length_line_le h line hline
  have hsize := length_bytesOf_le line
  refine ⟨fun checkSeverity htaken => ?_, fun func hfunc => ?_⟩
  · have hbuf : (bytesOf line).length < kLogBufSize := by
      show (bytesOf line).length < 256
      omega
    simp only [dispatch, htaken, snprintf_of_lt hbuf, Bool.not_true, Bool.false_eq_true, if_false]
  · have hfits : func.length + (bytesOf line).length < 510 := by omega
    exact Prod.ext rfl (write_of_lt hfits .info)

/-- In every run of the driver each report is printed, no line is cut or replaced, and two runs
that print the same bytes have made the same reports. -/
theorem application_log (ops : List Op) :
    ∃ reports, printed (events (run step (construct callbacks) ops)) = some reports ∧
      (∀ line ∈ reports.flatten,
        (∀ checkSeverity : Severity → Bool, checkSeverity .info = true →
          dispatch (some checkSeverity) .info line = some (bytesOf line)) ∧
          ∀ func : List UInt8, func.length ≤ 256 →
            write .info func (bytesOf line) =
              (.inf, func ++ bytesOf ": ".toList ++ bytesOf line)) ∧
      ∀ ops' reports',
        printed (events (run step (construct callbacks) ops')) = some reports' →
          reports.flatten.map bytesOf = reports'.flatten.map bytesOf →
            (events (run step (construct callbacks) ops)).map shown =
              (events (run step (construct callbacks) ops')).map shown := by
  obtain ⟨reports, hprinted⟩ :=
    exists_printed (prints_run (construct callbacks) ops)
  have hreports : ∀ {es reports}, printed es = some reports →
      ∀ r ∈ reports, IsReport isHeader r := by
    intro es reports h r hr
    obtain ⟨e, -, he⟩ := mem_printed h r hr
    exact (lines_isReport he).1
  refine ⟨reports, hprinted, ?_, ?_⟩
  · intro line hline
    obtain ⟨lines, hlines, hmem⟩ := List.mem_flatten.mp hline
    obtain ⟨e, -, he⟩ := mem_printed hprinted lines hlines
    exact line_passes he hmem
  · intro ops' reports' hprinted' hsame
    have hlines := List.map_injective_iff.mpr bytesOf_injective hsame
    have heq := reports_injective (hreports hprinted) (hreports hprinted') hlines
    rw [← heq] at hprinted'
    exact shown_of_printed hprinted hprinted'

end EnoceanCore.Application
