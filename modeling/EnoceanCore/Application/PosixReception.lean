import EnoceanCore.Application.Broadcasts

/-!
# From the socket to the application on POSIX

`run_impl` starts the scanner and then enables commissioning, while the scan thread reads events
and calls `advertisement_cb` for each report (`posixApplication`).

A read returns an advertising event, which is a header, the reports of broadcasts and a rest with
no complete report in front, or something that `scan_loop` filters out (`Reading`; there is
nothing else, `exists_reading`). Whatever the socket returns, the application is told what a
registry makes of the broadcasts in the events (`broadcasts_reach_application`): no trace is left
of the framing of events, reports and AD structures, and none of the broadcasts heard before
commissioning was enabled.
-/

namespace EnoceanCore.Application

open Lib Enocean

/-! ## What the socket returns -/

/-- The bytes pass the filters of `scan_loop`. -/
def LooksLikeEvent (bytes : List UInt8) : Prop :=
  16 ≤ bytes.length ∧ bytes.getD 0 0 = Ble.kHciEventPkt ∧ bytes.getD 1 0 = Ble.kEvtLeMeta ∧
    bytes.getD 3 0 = Ble.kLeAdvReportEvt

instance (bytes : List UInt8) : Decidable (LooksLikeEvent bytes) :=
  inferInstanceAs (Decidable (_ ∧ _ ∧ _ ∧ _))

/-- The bytes of an advertising event, with its length byte, the number of reports it names, and
what follows them. -/
def eventBytes (length count : UInt8) (broadcasts : List Broadcast) (rest : List UInt8) :
    List UInt8 :=
  [Ble.kHciEventPkt, Ble.kEvtLeMeta, length, Ble.kLeAdvReportEvt, count] ++
    ((broadcasts.map Broadcast.report).flatMap Ble.AdvReport.encode ++ rest)

/-- What `read` returns while the scanner is running: an event with the reports of some
broadcasts, well-formed or not, or something else, in particular nothing. -/
inductive Reading where
  | event (length count : UInt8) (broadcasts : List Broadcast) (rest : List UInt8)
      (cut : ∀ r : Ble.AdvReport, ¬ r.encode <+: rest)
      (fits : (eventBytes length count broadcasts rest).length ≤ Ble.kHciBufSize)
  | other (bytes : List UInt8) (filtered : ¬ LooksLikeEvent bytes)

namespace Reading

def bytes : Reading → List UInt8
  | event length count broadcasts rest _ _ => eventBytes length count broadcasts rest
  | other bytes _ => bytes

/-- The round of the loop. -/
def round (reading : Reading) : Ble.Round := .read reading.bytes true

/-- The broadcasts that are passed on: as many as the event names, but none if it names more than
fifteen, or is not longer than a single report without data makes it. -/
def heard : Reading → List Broadcast
  | event length count broadcasts rest _ _ =>
    if 15 < count.toNat ∨ (eventBytes length count broadcasts rest).length < 16 then []
    else broadcasts.take count.toNat
  | other _ _ => []

end Reading

theorem exists_broadcasts (reports : List Ble.AdvReport) :
    ∃ broadcasts : List Broadcast, broadcasts.map Broadcast.report = reports := by
  induction reports with
  | nil => exact ⟨[], rfl⟩
  | cons r reports ih =>
    obtain ⟨b, rfl⟩ := Broadcast.exists_broadcast r
    obtain ⟨broadcasts, rfl⟩ := ih
    exact ⟨b :: broadcasts, rfl⟩

/-- Whatever fits the buffer is a reading. -/
theorem exists_reading {bytes : List UInt8} (hfits : bytes.length ≤ Ble.kHciBufSize) :
    ∃ reading : Reading, reading.bytes = bytes := by
  by_cases hevent : LooksLikeEvent bytes
  · obtain ⟨hlong, hpacket, hcode, hsubevent⟩ := hevent
    match bytes with
    | packet :: code :: length :: subevent :: count :: more =>
      obtain rfl : packet = Ble.kHciEventPkt := hpacket
      obtain rfl : code = Ble.kEvtLeMeta := hcode
      obtain rfl : subevent = Ble.kLeAdvReportEvt := hsubevent
      obtain ⟨⟨reports, rest⟩, hsplit, -⟩ := Ble.existsUnique_reportSplit more
      obtain ⟨broadcasts, rfl⟩ := exists_broadcasts reports
      have hbytes : eventBytes length count broadcasts rest =
          Ble.kHciEventPkt :: Ble.kEvtLeMeta :: length :: Ble.kLeAdvReportEvt :: count :: more :=
        congrArg ([Ble.kHciEventPkt, Ble.kEvtLeMeta, length, Ble.kLeAdvReportEvt, count] ++ ·)
          hsplit.join
      exact ⟨.event length count broadcasts rest hsplit.tail (hbytes ▸ hfits), hbytes⟩
    | [] | [_] | [_, _] | [_, _, _] | [_, _, _, _] =>
      simp only [List.length_nil, List.length_cons] at hlong
      omega
  · exact ⟨.other bytes hevent, rfl⟩

/-! ## One round -/

section Round

variable (buf : Buffer Ble.kHciBufSize)

/-- What does not look like an event is dropped. -/
theorem reportsOf_scanEvent_other {bytes : List UInt8} (hfiltered : ¬ LooksLikeEvent bytes) :
    Ble.reportsOf (Ble.scanEvent true (buf.overwrite 0 (bytes.take Ble.kHciBufSize))
      (bytes.take Ble.kHciBufSize).length) = [] := by
  have hfits : (bytes.take Ble.kHciBufSize).length ≤ Ble.kHciBufSize := List.length_take_le _ _
  unfold Ble.scanEvent Ble.reportsOf
  by_cases hshort : (bytes.take Ble.kHciBufSize).length < 5 + Ble.kMinAdvReportSize
  · rw [if_pos hshort]
    rfl
  · have hlong : 16 ≤ (bytes.take Ble.kHciBufSize).length := Nat.le_of_not_lt hshort
    have hbyte : ∀ i < 16, (Span.ofList
        (buf.overwrite 0 (bytes.take Ble.kHciBufSize)).toList).byte i = bytes.getD i 0 := by
      intro i hi
      refine (Ble.byte_received buf hfits (Nat.lt_of_lt_of_le hi hlong)).trans ?_
      rw [List.getD_eq_getElem _ _ (Nat.lt_of_lt_of_le hi hlong), List.getElem_take,
        List.getD_eq_getElem]
    rw [if_neg hshort]
    simp only [Traced.proj_bind, Span.proj_get, Span.val_get, Traced.proj_ite, Traced.proj_pure,
      hbyte 0 (by omega), hbyte 1 (by omega), hbyte 3 (by omega), hbyte 4 (by omega)]
    rw [LooksLikeEvent] at hfiltered
    have hlength : 16 ≤ bytes.length := by
      rw [List.length_take] at hlong
      omega
    by_cases hpacket : bytes.getD 0 0 = Ble.kHciEventPkt
    swap
    · rw [if_pos hpacket]
      rfl
    by_cases hcode : bytes.getD 1 0 = Ble.kEvtLeMeta
    swap
    · rw [if_pos hcode, if_neg (not_not_intro hpacket)]
      rfl
    rw [if_neg (not_not_intro hpacket), if_neg (not_not_intro hcode), if_pos]
    · rfl
    · exact fun hsubevent => hfiltered ⟨hlength, hpacket, hcode, hsubevent⟩

/-- An event that names no report is dropped. -/
theorem reportsOf_scanEvent_of_count_zero {buf : Buffer Ble.kHciBufSize}
    (hzero : (Span.ofList buf.toList).byte 4 = 0) (total : Nat) :
    Ble.reportsOf (Ble.scanEvent true buf total) = [] := by
  have hget : ∀ i, ((Span.ofList buf.toList).get i).proj Ble.Action.report? = [] := fun _ => rfl
  unfold Ble.scanEvent Ble.reportsOf
  simp only [Traced.proj_ite, Traced.proj_bind, Traced.proj_pure, hget, Span.val_get, hzero,
    if_true, List.append_nil, ite_self]

/-- Of an event the broadcasts that are heard are passed on. -/
theorem reportsOf_scanEvent_event (length count : UInt8) (broadcasts : List Broadcast)
    (rest : List UInt8) (cut : ∀ r : Ble.AdvReport, ¬ r.encode <+: rest)
    (fits : (eventBytes length count broadcasts rest).length ≤ Ble.kHciBufSize) :
    let bytes := eventBytes length count broadcasts rest
    Ble.reportsOf (Ble.scanEvent true (buf.overwrite 0 bytes) bytes.length) =
      (Reading.event length count broadcasts rest cut fits).heard.map
        fun b => b.report.toAdvArgs := by
  intro bytes
  by_cases hshort : bytes.length < 16
  · have hmin : bytes.length < 5 + Ble.kMinAdvReportSize := hshort
    rw [Reading.heard, if_pos (Or.inr hshort), Ble.scanEvent, if_pos hmin]
    rfl
  · have hlong : 16 ≤ bytes.length := Nat.le_of_not_lt hshort
    have hbyte : ∀ i < 16, (Ble.received buf bytes).byte i = bytes.getD i 0 :=
      fun i hi => Ble.byte_received buf fits (Nat.lt_of_lt_of_le hi hlong)
    have hcount : (Ble.received buf bytes).byte 4 = count := hbyte 4 (by omega)
    by_cases hzero : count = 0
    · -- an event that names no report
      have hnone : (Reading.event length count broadcasts rest cut fits).heard = [] := by
        rw [Reading.heard, hzero]
        exact ite_self []
      rw [hnone]
      exact reportsOf_scanEvent_of_count_zero (hcount.trans hzero) bytes.length
    · have hsplit : Ble.ReportSplit ((Ble.received buf bytes).slice 5 (bytes.length - 5)).bytes
          (broadcasts.map Broadcast.report) rest := by
        rw [Ble.bytes_slice_received buf fits (Nat.le_trans (by decide) hlong)]
        exact ⟨rfl, cut⟩
      have hdispatch := Ble.reportsOf_dispatchAdvReport hsplit count
      have hscan : Ble.reportsOf (Ble.scanEvent true _ _) = _ :=
        Ble.reportsOf_scanEvent_of_header hlong (hbyte 0 (by omega)) (hbyte 1 (by omega))
          (hbyte 3 (by omega)) (by rw [← Ble.received, hcount]; exact hzero)
      rw [← Ble.received, hcount] at hscan
      refine hscan.trans (hdispatch.trans ?_)
      rw [Reading.heard]
      by_cases hmany : 15 < count.toNat
      · rw [if_pos hmany, if_pos (Or.inl hmany)]
        rfl
      · rw [if_neg hmany, if_neg (fun h => h.elim hmany hshort), ← List.map_take, List.map_map]
        rfl

/-- A round passes on the broadcasts that are heard in it. -/
theorem reportsOf_scanLoop_cons (reading : Reading) (rounds : List Ble.Round) :
    Ble.reportsOf (Ble.scanLoop true buf (reading.round :: rounds)) =
      (reading.heard.map fun b => b.report.toAdvArgs) ++
        Ble.reportsOf (Ble.scanLoop true (reading.round.store buf) rounds) := by
  have hread : ∀ {bytes : List UInt8}, bytes ≠ [] →
      Ble.reportsOf (Ble.scanLoop true buf (.read bytes true :: rounds)) =
        Ble.reportsOf (Ble.scanEvent true (buf.overwrite 0 (bytes.take Ble.kHciBufSize))
          (bytes.take Ble.kHciBufSize).length) ++
        Ble.reportsOf (Ble.scanLoop true (buf.overwrite 0 (bytes.take Ble.kHciBufSize))
          rounds) := by
    intro bytes hne
    have hlen : ¬ (bytes.take Ble.kHciBufSize).length = 0 := by
      have hpos := List.length_pos_iff.mpr hne
      rw [List.length_take]
      simp only [Ble.kHciBufSize]
      omega
    rw [Ble.scanLoop, Ble.reportsOf, Traced.proj_bind, Traced.proj_emit]
    simp only [if_neg hlen, Traced.proj_bind]
    rfl
  cases reading with
  | event length count broadcasts rest cut fits =>
    have htake : (eventBytes length count broadcasts rest).take Ble.kHciBufSize =
        eventBytes length count broadcasts rest := List.take_of_length_le fits
    have hevent := reportsOf_scanEvent_event buf length count broadcasts rest cut fits
    have hne : eventBytes length count broadcasts rest ≠ [] := List.cons_ne_nil _ _
    refine (hread hne).trans ?_
    rw [Reading.round, Reading.bytes, Ble.Round.store, htake, hevent]
  | other bytes filtered =>
    by_cases hne : bytes = []
    · subst hne
      rfl
    · refine (hread hne).trans ?_
      rw [reportsOf_scanEvent_other buf filtered]
      rfl

/-- The callback is called for every broadcast that is heard, in order. -/
theorem reportsOf_readings (readings : List Reading) :
    Ble.reportsOf (Ble.scanLoop true buf (readings.map Reading.round)) =
      (readings.flatMap Reading.heard).map fun b => b.report.toAdvArgs := by
  induction readings generalizing buf with
  | nil => rfl
  | cons reading readings ih =>
    rw [List.map_cons, reportsOf_scanLoop_cons, ih, List.flatMap_cons, List.map_append]

end Round

/-! ## The application -/

/-- The view of the data of a report: a part of the event, with the RSSI byte of the report
behind it. -/
def dataView (report : Ble.AdvArgs) : Span :=
  ⟨fun i => (report.data ++ [report.rssi.toUInt8]).getD i 0, 0, report.data.length⟩

/-- The call of the callback for a report. -/
def callOf (report : Ble.AdvArgs) : Ble.CallbackArgs where
  addr := report.addr
  addrType := report.addrType
  advType := report.advType
  rssi := report.rssi
  data := dataView report

theorem bytes_dataView (report : Ble.AdvArgs) : (dataView report).bytes = report.data := by
  apply List.ext_getElem
  · rw [Span.length_bytes]
    rfl
  · intro i hi hi'
    rw [Span.getElem_bytes]
    show (report.data ++ [report.rssi.toUInt8]).getD (0 + i) 0 = _
    rw [Nat.zero_add, List.getD_append _ _ _ _ hi', List.getD_eq_getElem _ _ hi']

theorem carries_callOf (b : Broadcast) : Carries (callOf b.report.toAdvArgs) b :=
  ⟨rfl, rfl, rfl, rfl, bytes_dataView _⟩

/-- The driver of `run_impl` when the scan thread goes through these rounds, with the buffer as
given, and commissioning is enabled behind the first `n` calls of the callback. -/
def posixApplication (crypto : CryptoBackend) (buf : Buffer Ble.kHciBufSize) (n : Nat)
    (rounds : List Ble.Round) : Traced Action EnoceanDriver :=
  application crypto n ((Ble.reportsOf (Ble.scanLoop true buf rounds)).map callOf)

/-- **From the socket to the application.** A read returns an event with the reports of broadcasts,
or something that is filtered out. Let the socket return any of these, and let commissioning be
enabled at any time. If the broadcasts that are heard after that are readable, the application is
told what an empty registry makes of them, and the devices of the driver are those of the
registry. -/
theorem broadcasts_reach_application :
    (∀ bytes : List UInt8, bytes.length ≤ Ble.kHciBufSize →
      ∃ reading : Reading, reading.bytes = bytes) ∧
    ∀ (crypto : CryptoBackend) (buf : Buffer Ble.kHciBufSize) (n : Nat) (readings : List Reading),
      (∀ b ∈ (readings.flatMap Reading.heard).drop n, b.Readable) →
      Tells (posixApplication crypto buf n (readings.map Reading.round))
        (run (receive crypto) listening ((readings.flatMap Reading.heard).drop n)) := by
  refine ⟨fun bytes hfits => exists_reading hfits, ?_⟩
  intro crypto buf n readings hreadable
  rw [posixApplication, reportsOf_readings, List.map_map]
  refine application_tells crypto n ?_ hreadable
  rw [List.forall₂_map_left_iff]
  exact List.forall₂_same.mpr fun b _ => carries_callOf b

/-- An error, an event that is cut off in its second report, and a short read. -/
def sampleReadings : List Reading :=
  [.other [] (by decide), .event 0 2 [sampleBroadcast] [0x03, 0x01, 0x09] (fun r hr => by
    have hle := hr.length_le
    rw [r.length_encode, List.length_cons, List.length_cons, List.length_singleton] at hle
    omega) (by decide), .other [0x04, 0x0E] (by decide)]

theorem broadcasts_reach_application_sampleReadings :
    Tells (posixApplication (fun _ => true) (Buffer.zero Ble.kHciBufSize) 0
        (sampleReadings.map Reading.round))
      (run (receive fun _ => true) listening [sampleBroadcast]) := by
  have hheard : (sampleReadings.flatMap Reading.heard).drop 0 = [sampleBroadcast] := rfl
  obtain ⟨-, htells⟩ := broadcasts_reach_application
  have hsample := htells (fun _ => true) (Buffer.zero Ble.kHciBufSize) 0 sampleReadings
  rw [hheard] at hsample
  apply hsample
  intro b hb
  obtain rfl := List.mem_singleton.mp hb
  exact readable_sampleBroadcast

end EnoceanCore.Application
