import EnoceanCore.Ble.Reports

/-!
# The scan loop

`scan_loop` reads one event after another into one buffer, drops what is no advertising event,
and passes the rest on to `dispatch_adv_report`. What the system does in each round, and what the
running flag says, is an input (`Round`).

An event of 16 reports or more is dropped by the sanity cap, and every event of fewer reports is
delivered (`advertising_event`), but for one: `k_min_adv_report_size` counts the byte with
the number of reports, which the five bytes of the header count too, so a single report without
data is too short.
-/

namespace EnoceanCore.Ble

open Lib

/-! ## Events -/

abbrev kHciEventPkt : UInt8 := 0x04

abbrev kEvtLeMeta : UInt8 := 0x3E

abbrev kLeAdvReportEvt : UInt8 := 0x02

abbrev kMinAdvReportSize : Nat := 11

abbrev kHciBufSize : Nat := 260

/-- The number of parameter bytes of an event: the subevent, the number of reports and these. -/
def paramLength (reports : List AdvReport) : Nat :=
  2 + (reports.flatMap AdvReport.encode).length

/-- A well-formed advertising event. -/
structure AdvEvent where
  reports : List AdvReport
  nonempty : reports ≠ []
  fits : paramLength reports < 256

/-- The bytes of an event. -/
def AdvEvent.encode (event : AdvEvent) : List UInt8 :=
  [kHciEventPkt, kEvtLeMeta, UInt8.ofNat (paramLength event.reports), kLeAdvReportEvt,
    UInt8.ofNat event.reports.length] ++ event.reports.flatMap AdvReport.encode

/-- The event is a single report without data. -/
def AdvEvent.Minimal (event : AdvEvent) : Prop := ∃ r, event.reports = [r] ∧ r.data = []

/-! ## `scan_loop` -/

/-- The inputs of one round: the flag is down at its head, or `read` returns these bytes (none
for an error) and the flag is as given when the loop looks at it after an error. -/
inductive Round where
  | stopped
  | read (bytes : List UInt8) (running : Bool)

/-- The loop goes on after this round. -/
def Round.Continues : Round → Prop
  | .stopped => False
  | .read bytes running => bytes ≠ [] ∨ running = true

/-- What the loop does with an event of `total` bytes. -/
def scanEvent (callback : Bool) (buf : Buffer kHciBufSize) (total : Nat) : Traced Action Unit := do
  let view := Span.ofList buf.toList
  if total < 5 + kMinAdvReportSize then return
  let packet ← view.get 0
  if packet ≠ kHciEventPkt then return
  let code ← view.get 1
  if code ≠ kEvtLeMeta then return
  let subevent ← view.get 3
  if subevent ≠ kLeAdvReportEvt then return
  let numReports ← view.get 4
  if numReports = 0 then return
  dispatchAdvReport callback (some (view.slice 5 (total - 5))) numReports

/-- The loop, with its buffer. -/
def scanLoop (callback : Bool) (buf : Buffer kHciBufSize) : List Round → Traced Action Unit
  | [] => pure ()
  | .stopped :: _ => pure ()
  | .read bytes running :: rounds => do
    Traced.emit .read
    let got := bytes.take kHciBufSize
    let buf := buf.overwrite 0 got
    if got.length = 0 then
      if !running then return
      scanLoop callback buf rounds
    else
      scanEvent callback buf got.length
      scanLoop callback buf rounds

/-- What can be seen of a run. -/
inductive ScanEvent where
  | read
  | report (args : AdvArgs)

def Action.event? : Action → Option ScanEvent
  | .read => some .read
  | .access _ => none
  | .report args => some (.report args)

/-- The reads and the calls of the callback, in order. -/
def eventsOf {α : Type} (x : Traced Action α) : List ScanEvent := x.proj Action.event?

/-! ## One event -/

namespace AdvEvent

variable (event : AdvEvent)

theorem length_encode : event.encode.length = 3 + paramLength event.reports := by
  rw [encode, List.length_append, paramLength]
  simp only [List.length_cons, List.length_nil]
  omega

theorem length_lt : event.encode.length < kHciBufSize := by
  have hfits := event.fits
  rw [event.length_encode]
  simp only [kHciBufSize]
  omega

/-- There are at most 25 reports. -/
theorem count_lt : event.reports.length < 256 := by
  have hfits := event.fits
  have hcount : ∀ reports : List AdvReport,
      reports.length ≤ (reports.flatMap AdvReport.encode).length := by
    intro reports
    induction reports with
    | nil => exact Nat.le_refl 0
    | cons r reports ih =>
      rw [List.flatMap_cons, List.length_append, r.length_encode, List.length_cons]
      omega
  have hle := hcount event.reports
  rw [paramLength] at hfits
  omega

theorem toNat_count : (UInt8.ofNat event.reports.length).toNat = event.reports.length :=
  UInt8.toNat_ofNat_of_lt' event.count_lt

/-- Only the minimal event is shorter than `scan_loop` asks for. -/
theorem long_of_not_minimal (h : ¬ event.Minimal) : 16 ≤ event.encode.length := by
  rw [event.length_encode, paramLength]
  have hne := event.nonempty
  match hreports : event.reports with
  | [] => exact absurd hreports hne
  | [r] =>
    have hdata : r.data ≠ [] := fun hnil => h ⟨r, hreports, hnil⟩
    have hpos := List.length_pos_iff.mpr hdata
    rw [List.flatMap_cons, List.length_append, r.length_encode]
    omega
  | r :: r' :: reports =>
    rw [List.flatMap_cons, List.flatMap_cons, List.length_append, List.length_append,
      r.length_encode, r'.length_encode]
    omega

end AdvEvent

/-- A view of the buffer after `read` has stored these bytes in front. -/
def received (buf : Buffer kHciBufSize) (bytes : List UInt8) : Span :=
  Span.ofList (buf.overwrite 0 bytes).toList

theorem byte_received (buf : Buffer kHciBufSize) {bytes : List UInt8}
    (hfits : bytes.length ≤ kHciBufSize) {i : Nat} (hi : i < bytes.length) :
    (received buf bytes).byte i = bytes.getD i 0 := by
  rw [received, Span.byte_ofList, Buffer.toList_overwrite_zero buf hfits,
    List.getD_append _ _ _ _ hi]

theorem bytes_slice_received (buf : Buffer kHciBufSize) {bytes : List UInt8}
    (hfits : bytes.length ≤ kHciBufSize) (hfive : 5 ≤ bytes.length) :
    ((received buf bytes).slice 5 (bytes.length - 5)).bytes = bytes.drop 5 := by
  have hsize : (received buf bytes).size = kHciBufSize := by
    rw [received, Span.size_ofList, Vector.length_toList]
  rw [Span.bytes_slice _ (by omega), received, Span.bytes_ofList,
    Buffer.toList_overwrite_zero buf hfits, List.drop_append_of_le_length hfive,
    ← List.length_drop]
  exact List.take_left

/-- An event that passes the filters is dispatched. -/
theorem reportsOf_scanEvent_of_header {callback : Bool} {buf : Buffer kHciBufSize} {total : Nat}
    (hlong : 16 ≤ total) (hpacket : (Span.ofList buf.toList).byte 0 = kHciEventPkt)
    (hcode : (Span.ofList buf.toList).byte 1 = kEvtLeMeta)
    (hsubevent : (Span.ofList buf.toList).byte 3 = kLeAdvReportEvt)
    (hcount : (Span.ofList buf.toList).byte 4 ≠ 0) :
    reportsOf (scanEvent callback buf total) = reportsOf (dispatchAdvReport callback
      (some ((Span.ofList buf.toList).slice 5 (total - 5))) ((Span.ofList buf.toList).byte 4)) := by
  have hmin : ¬ total < 5 + kMinAdvReportSize := by
    simp only [kMinAdvReportSize]
    omega
  unfold scanEvent reportsOf
  rw [if_neg hmin]
  simp only [Traced.proj_bind, Span.proj_get, Span.val_get, hpacket, hcode,
    hsubevent, hcount, ne_eq, not_true, if_false]
  rfl

/-- An event that is long enough is passed on. -/
theorem reportsOf_scanEvent (buf : Buffer kHciBufSize) (event : AdvEvent)
    (hlong : 16 ≤ event.encode.length) :
    reportsOf (scanEvent true (buf.overwrite 0 event.encode) event.encode.length) =
      if 15 < event.reports.length then [] else event.reports.map AdvReport.toAdvArgs := by
  have hfits : event.encode.length ≤ kHciBufSize := Nat.le_of_lt event.length_lt
  have hbyte : ∀ i < 5, (received buf event.encode).byte i = event.encode.getD i 0 :=
    fun i hi => byte_received buf hfits (by omega)
  have hcount : (received buf event.encode).byte 4 = UInt8.ofNat event.reports.length :=
    hbyte 4 (by omega)
  have hne : (received buf event.encode).byte 4 ≠ 0 := by
    intro hzero
    have hnat := event.toNat_count
    rw [← hcount, hzero] at hnat
    exact event.nonempty (List.length_eq_zero_iff.mp hnat.symm)
  have hsplit : ReportSplit ((received buf event.encode).slice 5 (event.encode.length - 5)).bytes
      event.reports [] := by
    rw [bytes_slice_received buf hfits (by omega)]
    exact reportSplit_flatMap event.reports
  have hdispatch := reportsOf_dispatchAdvReport hsplit ((received buf event.encode).byte 4)
  rw [hcount, event.toNat_count, List.take_length, ← hcount] at hdispatch
  rw [← hdispatch]
  exact reportsOf_scanEvent_of_header hlong (hbyte 0 (by omega)) (hbyte 1 (by omega))
    (hbyte 3 (by omega)) hne

/-! ## Runs -/

/-- The buffer after a round. -/
def Round.store (buf : Buffer kHciBufSize) : Round → Buffer kHciBufSize
  | .stopped => buf
  | .read bytes _ => buf.overwrite 0 (bytes.take kHciBufSize)

/-- Dispatching does not read from the socket. -/
theorem scanEvent_noRead (callback : Bool) (buf : Buffer kHciBufSize) (total : Nat) :
    (scanEvent callback buf total).Every (· ≠ .read) := by
  have hget : ∀ i, ((Span.ofList buf.toList).get i).Every (· ≠ Action.read) := by
    intro i
    rw [Span.every_get]
    intro h
    cases h
  have hreturn : (pure () : Traced Action Unit).Every (· ≠ .read) := Traced.every_pure _ _
  unfold scanEvent
  refine Traced.every_ite (fun _ => hreturn) fun _ => ?_
  refine Traced.every_seq (hget 0) (Traced.every_ite (fun _ => hreturn) fun _ => ?_)
  refine Traced.every_seq (hget 1) (Traced.every_ite (fun _ => hreturn) fun _ => ?_)
  refine Traced.every_seq (hget 3) (Traced.every_ite (fun _ => hreturn) fun _ => ?_)
  refine Traced.every_seq (hget 4) (Traced.every_ite (fun _ => hreturn) fun _ => ?_)
  refine (dispatchAdvReport_inside callback _).mono fun e he hread => ?_
  rw [hread] at he
  exact he

/-- All that is seen of an event are the calls of the callback. -/
theorem eventsOf_scanEvent (callback : Bool) (buf : Buffer kHciBufSize) (total : Nat) :
    eventsOf (scanEvent callback buf total) =
      (reportsOf (scanEvent callback buf total)).map .report := by
  rw [eventsOf, reportsOf, Traced.proj, Traced.proj, List.map_filterMap]
  apply List.filterMap_congr
  intro e he
  cases e with
  | read => exact absurd rfl (scanEvent_noRead callback buf total _ he)
  | access a => rfl
  | report args => rfl

theorem eventsOf_scanLoop_read (callback : Bool) (buf : Buffer kHciBufSize) {bytes : List UInt8}
    (running : Bool) (rounds : List Round) (hne : bytes ≠ []) :
    eventsOf (scanLoop callback buf (.read bytes running :: rounds)) =
      .read :: (reportsOf (scanEvent callback (buf.overwrite 0 (bytes.take kHciBufSize))
        (bytes.take kHciBufSize).length)).map .report ++
        eventsOf (scanLoop callback (buf.overwrite 0 (bytes.take kHciBufSize)) rounds) := by
  have hlen : ¬ (bytes.take kHciBufSize).length = 0 := by
    have hpos := List.length_pos_iff.mpr hne
    rw [List.length_take]
    simp only [kHciBufSize]
    omega
  rw [scanLoop, ← eventsOf_scanEvent]
  simp only [if_neg hlen]
  rw [eventsOf, Traced.proj_bind, Traced.proj_bind, Traced.proj_emit]
  rfl

/-- Another round, if the loop goes on after this one. -/
theorem eventsOf_scanLoop_cons (callback : Bool) (buf : Buffer kHciBufSize) {r : Round}
    (hr : r.Continues) (rounds : List Round) :
    eventsOf (scanLoop callback buf (r :: rounds)) =
      eventsOf (scanLoop callback buf [r]) ++
        eventsOf (scanLoop callback (r.store buf) rounds) := by
  cases r with
  | stopped => exact absurd hr id
  | read bytes running =>
    by_cases hne : bytes = []
    · obtain rfl : running = true := hr.resolve_left (fun h => h hne)
      subst hne
      rfl
    · have hnone :
          eventsOf (scanLoop callback (buf.overwrite 0 (bytes.take kHciBufSize)) []) = [] := rfl
      rw [eventsOf_scanLoop_read callback buf running rounds hne,
        eventsOf_scanLoop_read callback buf running [] hne, hnone, List.append_nil]
      rfl

theorem eventsOf_scanLoop_append (callback : Bool) (buf : Buffer kHciBufSize)
    {before : List Round} (hbefore : ∀ r ∈ before, r.Continues) (after : List Round) :
    eventsOf (scanLoop callback buf (before ++ after)) =
      eventsOf (scanLoop callback buf before) ++
        eventsOf (scanLoop callback (before.foldl Round.store buf) after) := by
  induction before generalizing buf with
  | nil => rfl
  | cons r before ih =>
    have hr := hbefore r List.mem_cons_self
    rw [List.cons_append, eventsOf_scanLoop_cons callback buf hr,
      ih (r.store buf) (fun r' hr' => hbefore r' (List.mem_cons_of_mem r hr')),
      ← List.append_assoc, ← eventsOf_scanLoop_cons callback buf hr, List.foldl_cons]

/-- What is seen of a run begins with a read. -/
theorem head_eventsOf_scanLoop (callback : Bool) (buf : Buffer kHciBufSize)
    (rounds : List Round) :
    ∀ e ∈ (eventsOf (scanLoop callback buf rounds)).head?, e = .read := by
  intro e he
  match rounds with
  | [] => cases he
  | .stopped :: _ => cases he
  | .read bytes running :: rounds =>
    rw [scanLoop, eventsOf, Traced.proj_bind, Traced.proj_emit] at he
    cases he
    rfl

/-- **Advertising events.** In every run of the loop with a callback registered, and wherever in
it an event is read in one piece: if the event has at most fifteen reports and is not a single
report without data, the callback is called for each of its reports in order, once each, before
the next read; if it has more than fifteen, the callback is not called for it. -/
theorem advertising_event (buf : Buffer kHciBufSize) {before : List Round}
    (hbefore : ∀ r ∈ before, r.Continues) (event : AdvEvent) (running : Bool)
    (after : List Round) :
    ∃ calls later, (∀ e ∈ List.head? later, e = .read) ∧
      eventsOf (scanLoop true buf (before ++ .read event.encode running :: after)) =
        eventsOf (scanLoop true buf before) ++ .read :: List.map .report calls ++ later ∧
      (event.reports.length ≤ 15 → ¬ event.Minimal →
        calls = event.reports.map AdvReport.toAdvArgs) ∧
      (15 < event.reports.length → calls = []) := by
  have hne : event.encode ≠ [] := List.cons_ne_nil _ _
  have htake : event.encode.take kHciBufSize = event.encode :=
    List.take_of_length_le (Nat.le_of_lt event.length_lt)
  let filled := before.foldl Round.store buf
  let stored := filled.overwrite 0 event.encode
  refine ⟨reportsOf (scanEvent true stored event.encode.length),
    eventsOf (scanLoop true stored after), head_eventsOf_scanLoop true stored after, ?_, ?_, ?_⟩
  · rw [eventsOf_scanLoop_append true buf hbefore, eventsOf_scanLoop_read true filled running after
      hne, htake, ← List.append_assoc]
  · intro hfew hminimal
    rw [reportsOf_scanEvent filled event (event.long_of_not_minimal hminimal), if_neg (by omega)]
  · intro hmany
    have hminimal : ¬ event.Minimal := by
      intro h
      obtain ⟨r, hr, -⟩ := h
      rw [hr, List.length_singleton] at hmany
      omega
    rw [reportsOf_scanEvent filled event (event.long_of_not_minimal hminimal), if_pos hmany]

/-- A report without data. -/
def bareReport : AdvReport where
  advType := 0
  addrType := 0
  addr := [1, 2, 3, 4, 5, 6]
  data := []
  rssi := -60
  addr_length := rfl
  data_length := by decide

theorem paramLength_replicate_bareReport (n : Nat) :
    paramLength (List.replicate n bareReport) = 2 + n * 10 := by
  have hlen : bareReport.encode.length = 10 := rfl
  rw [paramLength, List.length_flatMap, List.map_replicate, List.sum_replicate_nat, hlen]

/-- An event of as many reports without data. -/
def bareEvent (n : Nat) (hpos : 0 < n) (hfits : n ≤ 25) : AdvEvent where
  reports := List.replicate n bareReport
  nonempty := by
    intro h
    have hlen := congrArg List.length h
    rw [List.length_replicate, List.length_nil] at hlen
    omega
  fits := by
    rw [paramLength_replicate_bareReport]
    omega

/-- An event of two reports behind an event that is too short. -/
theorem advertising_event_second :
    ∃ later, (∀ e ∈ List.head? later, e = .read) ∧
      eventsOf (scanLoop true (Buffer.zero kHciBufSize)
        ([.read [0x04, 0x0E] true] ++
          .read (bareEvent 2 (by omega) (by omega)).encode true :: [])) =
        eventsOf (scanLoop true (Buffer.zero kHciBufSize) [.read [0x04, 0x0E] true]) ++
          [.read, .report bareReport.toAdvArgs, .report bareReport.toAdvArgs] ++ later := by
  have hbefore : ∀ r ∈ [Round.read [0x04, 0x0E] true], r.Continues := by
    intro r hr
    rw [List.mem_singleton.mp hr]
    exact Or.inr rfl
  have hminimal : ¬ (bareEvent 2 (by omega) (by omega)).Minimal := by
    intro h
    obtain ⟨r, hr, -⟩ := h
    have hlen := congrArg List.length hr
    cases hlen
  obtain ⟨calls, later, hlater, hevents, hcalls, -⟩ := advertising_event
    (Buffer.zero kHciBufSize) hbefore (bareEvent 2 (by omega) (by omega)) true []
  have hboth : calls = [bareReport.toAdvArgs, bareReport.toAdvArgs] :=
    hcalls (show 2 ≤ 15 by omega) hminimal
  rw [hboth] at hevents
  exact ⟨later, hlater, hevents⟩

/-- **Dropped events.** Sixteen reports are more than the sanity cap, and a single report without
data is shorter than the least event the loop looks at. -/
theorem not_advertising_event :
    eventsOf (scanLoop true (Buffer.zero kHciBufSize)
      [.read (bareEvent 16 (by omega) (by omega)).encode true]) = [.read] ∧
    eventsOf (scanLoop true (Buffer.zero kHciBufSize)
      [.read (bareEvent 1 (by omega) (by omega)).encode true]) = [.read] := by
  have hround : ∀ event : AdvEvent,
      reportsOf (scanEvent true ((Buffer.zero kHciBufSize).overwrite 0 event.encode)
        event.encode.length) = [] →
      eventsOf (scanLoop true (Buffer.zero kHciBufSize) [.read event.encode true]) = [.read] := by
    intro event hnone
    have htake : event.encode.take kHciBufSize = event.encode :=
      List.take_of_length_le (Nat.le_of_lt event.length_lt)
    have hne : event.encode ≠ [] := List.cons_ne_nil _ _
    rw [eventsOf_scanLoop_read true _ true [] hne, htake, hnone]
    rfl
  have hlength : ∀ (n : Nat) (hpos : 0 < n) (hfits : n ≤ 25),
      (bareEvent n hpos hfits).encode.length = 5 + n * 10 := by
    intro n hpos hfits
    rw [AdvEvent.length_encode]
    show 3 + paramLength (List.replicate n bareReport) = _
    rw [paramLength_replicate_bareReport]
    omega
  constructor
  · apply hround
    rw [reportsOf_scanEvent _ _ (by rw [hlength]; omega), if_pos]
    show 15 < (List.replicate 16 bareReport).length
    rw [List.length_replicate]
    omega
  · apply hround
    rw [hlength, scanEvent, if_pos (by simp only [kMinAdvReportSize]; omega)]
    rfl

end EnoceanCore.Ble
