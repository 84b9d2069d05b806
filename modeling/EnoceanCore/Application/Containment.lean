import EnoceanCore.Enocean.Bounds
import EnoceanCore.Application.PosixReception

/-!
# The byte behind the data

A structure that is one byte too long makes the driver read one byte behind the data it is given,
and never more (`processAdvertisement_contained`). On POSIX the data is a part of the event that
`read` has returned, and behind it stands the RSSI byte of the report, which
`dispatch_adv_report` has found to be in the event. So whatever comes from the socket, all that
the scan loop and the driver read lies in the bytes of the event (`reads_stay_in_event`).
-/

namespace EnoceanCore.Application

open Lib Enocean

/-! ## The driver -/

/-- Every access lies within the extent. -/
def Contained {α : Type} (outer : Extent) (x : Traced Action α) : Prop :=
  x.Every fun e => ∀ a, e = Action.access a → a.Inside outer

section Contained

variable {α β : Type} {outer : Extent}

theorem contained_pure (a : α) : Contained outer (pure a : Traced Action α) :=
  Traced.every_pure _ a

theorem Contained.seq {x : Traced Action α} {f : α → Traced Action β} (hx : Contained outer x)
    (hf : Contained outer (f x.val)) : Contained outer (x >>= f) := Traced.every_seq hx hf

theorem contained_of_confined {x : Traced Action α} (h : Confined outer x) : Contained outer x :=
  fun e he a ha => (h e he a ha).2

theorem contained_get {s : Span} {i : Nat} (h : (Access.read s.extent i).Inside outer) :
    Contained outer (s.get i : Traced Action UInt8) := by
  refine (Span.every_get _ s i).mpr fun a ha => ?_
  cases ha
  exact h

theorem contained_subspan {s : Span} {o n : Nat} (h : (Access.slice s.extent o n).Inside outer) :
    Contained outer (s.subspan o n : Traced Action Span) := by
  refine (Span.every_subspan _ s o n).mpr fun a ha => ?_
  cases ha
  exact h

end Contained

/-- The data and the byte behind it. -/
def reach (data : Span) : Extent := ⟨data.off, data.size + 1⟩

section Driver

variable {data : Span}

theorem read_inside_reach {i : Nat} (hi : i ≤ data.size) :
    (Access.read data.extent i).Inside (reach data) := by
  simp only [Access.Inside, reach, Span.extent_off]
  omega

/-- The walk over the AD structures. -/
theorem extractLoop_contained (i : Nat) : Contained (reach data) (extractLoop data i) := by
  have hempty : Contained (reach data) (pure Span.empty) := contained_pure _
  unfold extractLoop
  split
  · rename_i hi
    refine (contained_get (read_inside_reach (Nat.le_of_lt hi))).seq ?_
    rw [Span.val_get]
    refine Traced.every_ite (fun _ => hempty) fun hlen => ?_
    refine Traced.every_ite (fun _ => hempty) fun hfits => ?_
    refine (contained_get (read_inside_reach hi)).seq ?_
    have hrest := extractLoop_contained (i + 1 + (data.byte i).toNat)
    refine Traced.every_ite (fun _ => ?_) fun _ => hrest
    refine Traced.every_ite (fun _ => hempty) fun hroom => ?_
    refine (contained_get (read_inside_reach (by omega))).seq ?_
    refine (contained_get (read_inside_reach (by omega))).seq ?_
    refine Traced.every_ite (fun _ => ?_) fun _ => hrest
    refine Traced.every_ite (fun _ => hempty) fun hthree => ?_
    refine (contained_subspan ?_).seq (contained_pure _)
    simp only [Access.Inside, reach, Span.extent_off]
    omega
  · exact hempty
termination_by data.size - i

/-- A payload lies in the data or ends one byte behind it. -/
theorem payloadOf_within_reach :
    (payloadOf data).size = 0 ∨ (payloadOf data).extent.Within (reach data) := by
  rcases extractManufacturerData_cases data with hempty | ⟨p, -, hsel, hval⟩
  · left
    rw [payloadOf, hempty]
    rfl
  · right
    have hend := hsel.1.2.2
    have hlen := hsel.2.2.2.2
    rw [payloadOf, hval]
    simp only [Extent.Within, payloadAt, reach, Span.extent_off, Span.extent_size, Span.off_slice,
      Span.size_slice]
    omega

/-- **The driver reads at most one byte behind the data.** -/
theorem processAdvertisement_contained (crypto : CryptoBackend) (driver : EnoceanDriver)
    (addr : List UInt8) (addrType advType : UInt8) (rssi : Int8) (data : Span) :
    Contained (reach data)
      (processAdvertisement crypto driver addr addrType advType rssi data) := by
  have hreturn : Contained (reach data) (pure driver) := contained_pure _
  unfold processAdvertisement
  refine Traced.every_ite (fun _ => hreturn) fun _ => ?_
  refine Traced.every_ite (fun _ => hreturn) fun _ => ?_
  refine Traced.every_ite (fun _ => hreturn) fun _ => ?_
  refine Contained.seq (extractLoop_contained 0) ?_
  refine Traced.every_ite (fun _ => hreturn) fun hne => ?_
  have hp := payloadOf_within_reach.resolve_left hne
  refine Traced.every_ite (fun _ => hreturn) fun _ => ?_
  rw [val_extractManufacturerData]
  cases findDevice driver.devices addr with
  | some i =>
    exact (contained_of_confined (handleData_confined _ _ _ hp)).seq (contained_pure _)
  | none =>
    refine Traced.every_ite (fun _ => ?_) (fun _ => hreturn)
    exact (contained_of_confined (handleCommissioning_confined _ _ _ _ hp)).seq (contained_pure _)

end Driver

/-! ## The scan loop -/

/-- What `read` stores in a round. -/
def received : Ble.Round → List UInt8
  | .stopped => []
  | .read bytes _ => bytes.take Ble.kHciBufSize

/-- The view of the data of a report in the region that holds the event. -/
structure ViewOf (event : List UInt8) (report : Ble.AdvArgs) (view : Span) : Prop where
  region : ∀ i < event.length, view.mem i = event.getD i 0
  within : (reach view).Within ⟨0, event.length⟩
  size : view.size = report.data.length
  shows : ∀ i ≤ view.size, view.byte i = (dataView report).byte i

/-- The action reads bytes of the event, or hands over a view of it, and all that the driver reads
then, in any state and with any backend, are bytes of the event. -/
def StaysIn (event : List UInt8) : Ble.Action → Prop
  | .read => True
  | .access a => a.Inside ⟨0, event.length⟩
  | .report report => ∃ view, ViewOf event report view ∧
      ∀ (crypto : CryptoBackend) (driver : EnoceanDriver),
        Contained ⟨0, event.length⟩ (advertisementCb crypto driver
          { callOf report with data := view })

/-- The actions of a round: it reads once, and stays in what it has read. -/
structure PartOf (round : Ble.Round) (part : List Ble.Action) : Prop where
  read : part.head? = some .read
  once : .read ∉ part.tail
  stays : ∀ e ∈ part, StaysIn (received round) e

section Report

variable {buf : Span} {ptr n : Nat} {report : Ble.AdvArgs}

/-- Every report that is passed on is complete. -/
theorem complete_of_mem_reportLoop (h : report ∈ Ble.reportsOf (Ble.reportLoop buf ptr n)) :
    ∃ q, report = Ble.argsAt buf q ∧ q + 10 + (buf.byte (q + 8)).toNat ≤ buf.size := by
  induction n generalizing ptr with
  | zero => cases h
  | succ n ih =>
    rw [Ble.reportsOf_reportLoop_succ] at h
    split at h
    · cases h
    · rename_i hfits
      rcases List.mem_cons.mp h with rfl | h
      · exact ⟨ptr, rfl, Nat.le_of_not_lt hfits⟩
      · exact ih h

theorem mem_reportLoop_of_dispatch {callback : Bool} {numReports : UInt8}
    (h : report ∈ Ble.reportsOf (Ble.dispatchAdvReport callback (some buf) numReports)) :
    report ∈ Ble.reportsOf (Ble.reportLoop buf 0 numReports.toNat) := by
  unfold Ble.dispatchAdvReport at h
  dsimp only at h
  split at h
  · cases h
  · split at h
    · cases h
    · exact h

/-- The view of the data shows the data and the RSSI byte. -/
theorem byte_dataView_argsAt {q i : Nat} (hi : i ≤ (buf.byte (q + 8)).toNat) :
    (dataView (Ble.argsAt buf q)).byte i =
      (buf.slice (q + 9) (buf.byte (q + 8)).toNat).byte i := by
  have hlen : (Ble.argsAt buf q).data.length = (buf.byte (q + 8)).toNat := by
    rw [Ble.argsAt, Span.length_bytes, Span.size_slice]
  show ((Ble.argsAt buf q).data ++ [(Ble.argsAt buf q).rssi.toUInt8]).getD (0 + i) 0 = _
  rw [Nat.zero_add, Span.byte_slice]
  by_cases hlast : i = (buf.byte (q + 8)).toNat
  · rw [List.getD_append_right _ _ _ _ (by omega), hlen, hlast, Nat.sub_self]
    exact UInt8.toUInt8_toInt8 _
  · have hin : i < (Ble.argsAt buf q).data.length := by omega
    rw [List.getD_append _ _ _ _ hin, List.getD_eq_getElem _ _ hin]
    exact (Span.getElem_bytes _ i hin).trans (Span.byte_slice _ _ _ _)

/-- A complete report is handed over as a view of the event. -/
theorem viewOf_argsAt {event : List UInt8}
    (hregion : ∀ i < event.length, buf.mem i = event.getD i 0)
    (hend : buf.off + buf.size ≤ event.length) {q : Nat}
    (hcomplete : q + 10 + (buf.byte (q + 8)).toNat ≤ buf.size) :
    ViewOf event (Ble.argsAt buf q) (buf.slice (q + 9) (buf.byte (q + 8)).toNat) := by
  refine ⟨hregion, ?_, ?_, fun i hi => (byte_dataView_argsAt hi).symm⟩
  · simp only [Extent.Within, reach, Span.off_slice, Span.size_slice]
    omega
  · rw [Ble.argsAt, Span.length_bytes]

end Report

section Event

variable (buf : Buffer Ble.kHciBufSize) {event : List UInt8}

/-- The reports behind the header of an event. -/
theorem dispatchAdvReport_staysIn (callback : Bool) (hfits : event.length ≤ Ble.kHciBufSize)
    (hfive : 5 ≤ event.length) (numReports : UInt8) :
    (Ble.dispatchAdvReport callback
      (some ((Ble.received buf event).slice 5 (event.length - 5))) numReports).Every
      (StaysIn event) := by
  intro e he
  cases e with
  | read => trivial
  | access a =>
    refine (Ble.dispatchAdvReport_inside callback numReports _ he).mono ?_
    simp only [Extent.Within, Span.extent_off, Span.extent_size, Span.off_slice, Span.size_slice,
      Ble.received, Span.ofList]
    omega
  | report report =>
    have hmem : report ∈ Ble.reportsOf (Ble.dispatchAdvReport callback
        (some ((Ble.received buf event).slice 5 (event.length - 5))) numReports) :=
      List.mem_filterMap.mpr ⟨_, he, rfl⟩
    obtain ⟨q, rfl, hcomplete⟩ := complete_of_mem_reportLoop (mem_reportLoop_of_dispatch hmem)
    have hoff : (Ble.received buf event).off = 0 := rfl
    have hregion : ∀ i < event.length,
        ((Ble.received buf event).slice 5 (event.length - 5)).mem i = event.getD i 0 := by
      intro i hi
      rw [Span.mem_slice, ← Ble.byte_received buf hfits hi, Span.byte, hoff, Nat.zero_add]
    have hend : ((Ble.received buf event).slice 5 (event.length - 5)).off +
        ((Ble.received buf event).slice 5 (event.length - 5)).size ≤ event.length := by
      rw [Span.off_slice, Span.size_slice, hoff]
      omega
    have hview := viewOf_argsAt hregion hend hcomplete
    refine ⟨_, hview, fun crypto driver e he a ha => ?_⟩
    exact (processAdvertisement_contained crypto driver _ _ _ _ _ e he a ha).mono hview.within

/-- One event is read and handed over within its own bytes. -/
theorem scanEvent_staysIn (callback : Bool) (hfits : event.length ≤ Ble.kHciBufSize) :
    (Ble.scanEvent callback (buf.overwrite 0 event) event.length).Every (StaysIn event) := by
  have hreturn : (pure () : Traced Ble.Action Unit).Every (StaysIn event) := Traced.every_pure _ _
  unfold Ble.scanEvent
  refine Traced.every_ite (fun _ => hreturn) fun hlong => ?_
  simp only [Ble.kMinAdvReportSize] at hlong
  have hget : ∀ i < 16, ((Span.ofList (buf.overwrite 0 event).toList).get i :
      Traced Ble.Action UInt8).Every (StaysIn event) := by
    intro i hi
    have hoff : (Span.ofList (buf.overwrite 0 event).toList).off = 0 := rfl
    rw [Span.every_get]
    change (Access.read (Span.ofList (buf.overwrite 0 event).toList).extent i).Inside _
    rw [Access.Inside, Span.extent_off, hoff]
    dsimp only
    omega
  refine Traced.every_seq (hget 0 (by omega)) (Traced.every_ite (fun _ => hreturn) fun _ => ?_)
  refine Traced.every_seq (hget 1 (by omega)) (Traced.every_ite (fun _ => hreturn) fun _ => ?_)
  refine Traced.every_seq (hget 3 (by omega)) (Traced.every_ite (fun _ => hreturn) fun _ => ?_)
  refine Traced.every_seq (hget 4 (by omega)) (Traced.every_ite (fun _ => hreturn) fun _ => ?_)
  exact dispatchAdvReport_staysIn buf callback hfits (by omega) _

end Event

/-- The part of a round whose `read` has returned no bytes. -/
theorem partOf_empty (round : Ble.Round) : PartOf round [.read] := by
  refine ⟨rfl, List.not_mem_nil, fun e he => ?_⟩
  rw [List.mem_singleton.mp he]
  trivial

theorem partOf_event (callback : Bool) (buf : Buffer Ble.kHciBufSize) (bytes : List UInt8)
    (running : Bool) :
    PartOf (.read bytes running) (.read ::
      (Ble.scanEvent callback (buf.overwrite 0 (bytes.take Ble.kHciBufSize))
        (bytes.take Ble.kHciBufSize).length).log) := by
  refine ⟨rfl, fun hread => ?_, List.forall_mem_cons.mpr ⟨trivial, ?_⟩⟩
  · exact Ble.scanEvent_noRead callback _ _ _ hread rfl
  · exact scanEvent_staysIn buf callback (List.length_take_le Ble.kHciBufSize bytes)

end EnoceanCore.Application
