import EnoceanCore.Lib.Framing
import EnoceanCore.Lib.Memory

/-!
# Advertising reports

The advertising reports of one event stand behind each other (`AdvReport.encode`), and the length
byte of a report says where it ends, so the reports of a buffer are a framing (`reportFraming`).
`dispatch_adv_report` walks over the buffer with a pointer. It passes on the complete reports in
front, up to the number the event names (`reportsOf_reportLoop`), and reads nothing outside the
buffer.
-/

namespace EnoceanCore.Ble

open Lib

/-! ## Reports -/

/-- What the callback is given for one report. -/
structure AdvArgs where
  advType : UInt8
  addrType : UInt8
  addr : List UInt8
  data : List UInt8
  rssi : Int8
  deriving DecidableEq

/-- The arguments of an `AdvCallback`, with the data as a view. -/
structure CallbackArgs where
  addr : List UInt8
  addrType : UInt8
  advType : UInt8
  rssi : Int8
  data : Span

/-- A report as it is sent: an address of six bytes and data with a length byte. -/
structure AdvReport extends AdvArgs where
  addr_length : addr.length = 6
  data_length : data.length < 256

namespace AdvReport

/-- The bytes of a report. -/
def encode (r : AdvReport) : List UInt8 :=
  r.advType :: r.addrType :: (r.addr ++ UInt8.ofNat r.data.length :: (r.data ++ [r.rssi.toUInt8]))

theorem length_encode (r : AdvReport) : r.encode.length = 10 + r.data.length := by
  simp only [encode, List.length_cons, List.length_append, List.length_nil, r.addr_length]
  omega

theorem toNat_dataLen (r : AdvReport) : (UInt8.ofNat r.data.length).toNat = r.data.length :=
  UInt8.toNat_ofNat_of_lt' r.data_length

end AdvReport

/-- The fields of the report in front of these bytes. -/
def decodeReport (u : List UInt8) : AdvArgs where
  advType := u.getD 0 0
  addrType := u.getD 1 0
  addr := (u.drop 2).take 6
  data := (u.drop 9).take (u.getD 8 0).toNat
  rssi := ((u.drop 9).getD (u.getD 8 0).toNat 0).toInt8

/-- The fields come back, whatever follows. -/
theorem decodeReport_encode (r : AdvReport) (rest : List UInt8) :
    decodeReport (r.encode ++ rest) = r.toAdvArgs := by
  obtain ⟨⟨advType, addrType, addr, data, rssi⟩, haddr, hdata⟩ := r
  match addr, haddr with
  | [a0, a1, a2, a3, a4, a5], _ =>
    have hlen : (UInt8.ofNat data.length).toNat = data.length := UInt8.toNat_ofNat_of_lt' hdata
    have htake : (data ++ [rssi.toUInt8] ++ rest).take (UInt8.ofNat data.length).toNat = data := by
      rw [hlen, List.append_assoc]
      exact List.take_left
    have hrssi : (data ++ [rssi.toUInt8] ++ rest).getD (UInt8.ofNat data.length).toNat 0 =
        rssi.toUInt8 := by
      rw [hlen, List.append_assoc, List.getD_append_right _ _ _ _ (Nat.le_refl _), Nat.sub_self]
      rfl
    show AdvArgs.mk advType addrType [a0, a1, a2, a3, a4, a5]
      ((data ++ [rssi.toUInt8] ++ rest).take (UInt8.ofNat data.length).toNat)
      ((data ++ [rssi.toUInt8] ++ rest).getD (UInt8.ofNat data.length).toNat 0).toInt8 = _
    rw [htake, hrssi, Int8.toInt8_toUInt8]

theorem getD_encode (r : AdvReport) : r.encode.getD 8 0 = UInt8.ofNat r.data.length := by
  obtain ⟨⟨advType, addrType, addr, data, rssi⟩, haddr, hdata⟩ := r
  match addr, haddr with
  | [a0, a1, a2, a3, a4, a5], _ => rfl

theorem encode_injective : Function.Injective AdvReport.encode := by
  intro r r' h
  have hargs : r.toAdvArgs = r'.toAdvArgs := by
    rw [← decodeReport_encode r [], ← decodeReport_encode r' [], h]
  cases r
  cases r'
  cases hargs
  rfl

/-- Nine bytes, as many as the ninth says, and one more are a report. -/
theorem exists_encode_of_length {u : List UInt8} (h : u.length = 10 + (u.getD 8 0).toNat) :
    ∃ r : AdvReport, r.encode = u := by
  match u, h with
  | advType :: addrType :: a0 :: a1 :: a2 :: a3 :: a4 :: a5 :: len :: more, h =>
    have hmore : more.length = len.toNat + 1 := by
      have hlen : more.length + 9 = 10 + len.toNat := h
      omega
    have hdata : more.dropLast.length = len.toNat := by
      rw [List.length_dropLast, hmore, Nat.add_sub_cancel]
    have hne : more ≠ [] := List.ne_nil_of_length_pos (by omega)
    refine ⟨⟨⟨advType, addrType, [a0, a1, a2, a3, a4, a5], more.dropLast,
      (more.getLast hne).toInt8⟩, rfl, hdata ▸ len.toNat_lt⟩, ?_⟩
    have hback : UInt8.ofNat more.dropLast.length :: (more.dropLast ++ [more.getLast hne]) =
        len :: more := by
      rw [hdata, UInt8.ofNat_toNat, List.dropLast_append_getLast hne]
    exact congrArg ([advType, addrType, a0, a1, a2, a3, a4, a5] ++ ·) hback

/-! ## The reports of a buffer -/

/-- The length of the report in front, which its ninth byte tells. -/
def reportLength (xs : List UInt8) : Nat := 10 + (xs.getD 8 0).toNat

/-- What follows the first ten bytes does not change the length. -/
theorem reportLength_take_append {xs : List UInt8} {n : Nat} (hn : 10 ≤ n) (hfits : n ≤ xs.length)
    (ys : List UInt8) : reportLength (xs.take n ++ ys) = reportLength xs := by
  have htake : 8 < (xs.take n).length := by
    rw [List.length_take]
    omega
  rw [reportLength, reportLength, List.getD_append _ _ _ _ htake, List.getD_eq_getElem _ _ htake,
    List.getElem_take, List.getD_eq_getElem _ _ (by omega)]

theorem reportSize_eq_some {xs : List UInt8} {n : Nat} :
    (some (reportLength xs)).filter (· ≤ xs.length) = some n ↔
      reportLength xs = n ∧ n ≤ xs.length := by
  rw [Option.filter_eq_some_iff, Option.some_inj, decide_eq_true_iff]

/-- The framing of a buffer. -/
def reportFraming : Framing UInt8 where
  size xs := (some (reportLength xs)).filter (· ≤ xs.length)
  pos h := by
    have hlen := (reportSize_eq_some.mp h).1
    rw [reportLength] at hlen
    omega
  fits h := (reportSize_eq_some.mp h).2
  stable := by
    intro xs n h ys
    obtain ⟨hlen, hfits⟩ := reportSize_eq_some.mp h
    have hten : 10 ≤ n := by
      rw [reportLength] at hlen
      omega
    refine reportSize_eq_some.mpr ⟨(reportLength_take_append hten hfits ys).trans hlen, ?_⟩
    rw [List.length_append, List.length_take, Nat.min_eq_left hfits]
    exact Nat.le_add_right n _

/-- The units of the framing are the reports. -/
theorem isUnit_iff_encode {u : List UInt8} :
    reportFraming.IsUnit u ↔ ∃ r : AdvReport, r.encode = u := by
  constructor
  · intro h
    exact exists_encode_of_length (reportSize_eq_some.mp h).1.symm
  · intro h
    obtain ⟨r, rfl⟩ := h
    refine reportSize_eq_some.mpr ⟨?_, Nat.le_refl _⟩
    rw [reportLength, getD_encode, AdvReport.toNat_dataLen, AdvReport.length_encode]

/-- The complete reports in front of a buffer and what is left. -/
structure ReportSplit (bytes : List UInt8) (reports : List AdvReport) (tail : List UInt8) :
    Prop where
  join : reports.flatMap AdvReport.encode ++ tail = bytes
  tail : ∀ r : AdvReport, ¬ r.encode <+: tail

/-- No report is in front of a list if no report is a prefix of it. -/
theorem size_eq_none_iff_prefix {t : List UInt8} :
    reportFraming.size t = none ↔ ∀ r : AdvReport, ¬ r.encode <+: t := by
  constructor
  · intro h r hprefix
    obtain ⟨rest, rfl⟩ := hprefix
    rw [(isUnit_iff_encode.mpr ⟨r, rfl⟩).size_append] at h
    cases h
  · intro h
    cases hsize : reportFraming.size t with
    | none => rfl
    | some n =>
      obtain ⟨r, hr⟩ := isUnit_iff_encode.mp (Framing.isUnit_take hsize)
      exact absurd (hr ▸ List.take_prefix n t) (h r)

theorem reportSplit_iff {bytes tail : List UInt8} {reports : List AdvReport} :
    ReportSplit bytes reports tail ↔
      reportFraming.Splits bytes (reports.map AdvReport.encode) tail := by
  constructor
  · intro h
    refine ⟨h.join, fun u hu => ?_, size_eq_none_iff_prefix.mpr h.tail⟩
    obtain ⟨r, -, hr⟩ := List.mem_map.mp hu
    exact isUnit_iff_encode.mpr ⟨r, hr⟩
  · intro h
    exact ⟨h.join, size_eq_none_iff_prefix.mp h.tail⟩

/-- Units are encoded reports. -/
theorem exists_map_encode {units : List (List UInt8)} (h : ∀ u ∈ units, reportFraming.IsUnit u) :
    ∃ reports : List AdvReport, reports.map AdvReport.encode = units := by
  induction units with
  | nil => exact ⟨[], rfl⟩
  | cons u units ih =>
    obtain ⟨r, hr⟩ := isUnit_iff_encode.mp (h u List.mem_cons_self)
    obtain ⟨reports, hreports⟩ := ih fun v hv => h v (List.mem_cons_of_mem u hv)
    exact ⟨r :: reports, by rw [List.map_cons, hr, hreports]⟩

/-- A buffer is complete reports and a rest in exactly one way. -/
theorem existsUnique_reportSplit (bytes : List UInt8) :
    ∃! s : List AdvReport × List UInt8, ReportSplit bytes s.1 s.2 := by
  have hsplits := reportFraming.splits_split bytes
  obtain ⟨reports, hreports⟩ := exists_map_encode hsplits.units
  refine ⟨(reports, (reportFraming.split bytes).2), ?_, ?_⟩
  · exact reportSplit_iff.mpr (hreports ▸ hsplits)
  · intro s h
    obtain ⟨hunits, htail⟩ := hsplits.unique (reportSplit_iff.mp h)
    rw [← hreports] at hunits
    exact Prod.ext (encode_injective.list_map hunits) htail

/-! ## `dispatch_adv_report` -/

/-- What a scan does. -/
inductive Action where
  /-- The scan loop asks the socket for the next event. -/
  | read
  | access (a : Access)
  /-- The callback is called. -/
  | report (args : AdvArgs)

instance : HasAccess Action := ⟨.access⟩

/-- The arguments of the callback, if this is one. -/
def Action.report? : Action → Option AdvArgs
  | .report args => some args
  | _ => none

/-- The calls of the callback. -/
def reportsOf {α : Type} (x : Traced Action α) : List AdvArgs := x.proj Action.report?

abbrev kMaxReports : UInt8 := 15

abbrev kReportHdr : Nat := 10

/-- The loop of `dispatch_adv_report` for the next `n` reports, with its pointer. -/
def reportLoop (buf : Span) (ptr : Nat) : Nat → Traced Action Unit
  | 0 => pure ()
  | n + 1 => do
    if ptr + kReportHdr > buf.size then return
    let advType ← buf.get ptr
    let addrType ← buf.get (ptr + 1)
    let dataLen ← buf.get (ptr + 8)
    if ptr + kReportHdr + dataLen.toNat > buf.size then return
    let addrPtr := ptr + 2
    let dataPtr := ptr + 9
    let rssiPtr := dataPtr + dataLen.toNat
    let rssi ← buf.get rssiPtr
    let addr ← buf.subspan addrPtr 6
    let data ← buf.subspan dataPtr dataLen.toNat
    Traced.emit (.report ⟨advType, addrType, addr.bytes, data.bytes, rssi.toInt8⟩)
    reportLoop buf (rssiPtr + 1) n

/-- `report` is `none` for a null pointer; `callback` says whether one is registered. -/
def dispatchAdvReport (callback : Bool) (report : Option Span) (numReports : UInt8) :
    Traced Action Unit :=
  match report with
  | none => pure ()
  | some buf => do
    if !callback then return
    if numReports > kMaxReports then return
    reportLoop buf 0 numReports.toNat

/-! ## The loop -/

/-- A call of the callback, or an access within this extent. -/
def Action.Inside (outer : Extent) : Action → Prop
  | .read => False
  | .access a => a.Inside outer
  | .report _ => True

section Inside

variable {buf : Span}

theorem get_inside {i : Nat} (hi : i < buf.size) :
    (buf.get i).Every (Action.Inside buf.extent) := by
  rw [Span.every_get]
  exact Access.InBounds.inside (a := .read buf.extent i) hi (Extent.Within.refl buf.extent)

theorem subspan_inside {o k : Nat} (hfits : o + k ≤ buf.size) :
    (buf.subspan o k).Every (Action.Inside buf.extent) := by
  rw [Span.every_subspan]
  exact Access.InBounds.inside (a := .slice buf.extent o k) hfits (Extent.Within.refl buf.extent)

/-- The loop reads nothing outside the buffer. -/
theorem reportLoop_inside (ptr n : Nat) :
    (reportLoop buf ptr n).Every (Action.Inside buf.extent) := by
  induction n generalizing ptr with
  | zero => exact Traced.every_pure _ _
  | succ n ih =>
    unfold reportLoop
    refine Traced.every_ite (fun _ => Traced.every_pure _ _) fun hhdr => ?_
    simp only [kReportHdr] at hhdr
    apply Traced.every_seq (get_inside (by omega))
    apply Traced.every_seq (get_inside (by omega))
    apply Traced.every_seq (get_inside (by omega))
    refine Traced.every_ite (fun _ => Traced.every_pure _ _) fun hdata => ?_
    simp only [kReportHdr, Span.val_get] at hdata ⊢
    apply Traced.every_seq (get_inside (by omega))
    apply Traced.every_seq (subspan_inside (by omega))
    apply Traced.every_seq (subspan_inside (by omega))
    refine Traced.every_seq ?_ (ih _)
    rw [Traced.every_emit]
    trivial

theorem dispatchAdvReport_inside (callback : Bool) (numReports : UInt8) :
    (dispatchAdvReport callback (some buf) numReports).Every (Action.Inside buf.extent) := by
  unfold dispatchAdvReport
  refine Traced.every_ite (fun _ => Traced.every_pure _ _) fun _ => ?_
  refine Traced.every_ite (fun _ => Traced.every_pure _ _) fun _ => ?_
  exact reportLoop_inside 0 numReports.toNat

end Inside

section Round

variable {buf : Span} {ptr n : Nat}

/-- What a round passes on. -/
def argsAt (buf : Span) (ptr : Nat) : AdvArgs where
  advType := buf.byte ptr
  addrType := buf.byte (ptr + 1)
  addr := (buf.slice (ptr + 2) 6).bytes
  data := (buf.slice (ptr + 9) (buf.byte (ptr + 8)).toNat).bytes
  rssi := (buf.byte (ptr + 9 + (buf.byte (ptr + 8)).toNat)).toInt8

theorem reportsOf_reportLoop_succ :
    reportsOf (reportLoop buf ptr (n + 1)) =
      if buf.size < ptr + 10 + (buf.byte (ptr + 8)).toNat then []
      else argsAt buf ptr ::
        reportsOf (reportLoop buf (ptr + (10 + (buf.byte (ptr + 8)).toNat)) n) := by
  have hnext : ptr + 9 + (buf.byte (ptr + 8)).toNat + 1 =
      ptr + (10 + (buf.byte (ptr + 8)).toNat) := by
    omega
  rw [reportLoop, reportsOf]
  simp only [kReportHdr, Traced.proj_ite, Traced.proj_bind, Traced.proj_pure, Span.proj_get,
    Span.val_get, Span.proj_subspan, Span.val_subspan, Traced.proj_emit, hnext]
  by_cases hdata : buf.size < ptr + 10 + (buf.byte (ptr + 8)).toNat
  · rw [if_pos hdata, if_pos hdata]
    exact ite_self []
  · rw [if_neg hdata, if_neg hdata, if_neg (by omega)]
    rfl

/-- The arguments are the fields of the bytes from the pointer on. -/
theorem argsAt_eq (hfits : ptr + (10 + (buf.byte (ptr + 8)).toNat) ≤ buf.size) :
    argsAt buf ptr = decodeReport (buf.bytes.drop ptr) := by
  have hbyte : ∀ i, ptr + i < buf.size → (buf.bytes.drop ptr).getD i 0 = buf.byte (ptr + i) :=
    fun i hi => buf.getD_drop_bytes hi
  have haddr : (buf.slice (ptr + 2) 6).bytes = ((buf.bytes.drop ptr).drop 2).take 6 := by
    rw [buf.bytes_slice (by omega), List.drop_drop]
  have hdata : (buf.slice (ptr + 9) (buf.byte (ptr + 8)).toNat).bytes =
      ((buf.bytes.drop ptr).drop 9).take (buf.byte (ptr + 8)).toNat := by
    rw [buf.bytes_slice (by omega), List.drop_drop]
  have hrssi : ((buf.bytes.drop ptr).drop 9).getD (buf.byte (ptr + 8)).toNat 0 =
      buf.byte (ptr + 9 + (buf.byte (ptr + 8)).toNat) := by
    rw [List.drop_drop, buf.getD_drop_bytes (by omega)]
  rw [argsAt, decodeReport, hbyte 0 (by omega), hbyte 1 (by omega), hbyte 8 (by omega), haddr,
    hdata, hrssi]
  rfl

/-- A round with a complete report in front passes it on. -/
theorem reportsOf_reportLoop_report {r : AdvReport} {rest : List UInt8}
    (h : buf.bytes.drop ptr = r.encode ++ rest) :
    reportsOf (reportLoop buf ptr (n + 1)) =
      r.toAdvArgs :: reportsOf (reportLoop buf (ptr + r.encode.length) n) := by
  have hlen := congrArg List.length h
  rw [List.length_drop, buf.length_bytes, List.length_append, r.length_encode] at hlen
  have hbyte : (buf.byte (ptr + 8)).toNat = r.data.length := by
    rw [← buf.getD_drop_bytes (by omega), h, List.getD_append _ _ _ _ (by
      rw [r.length_encode]
      omega), getD_encode, r.toNat_dataLen]
  have hargs : argsAt buf ptr = r.toAdvArgs := by
    rw [argsAt_eq (by omega), h, decodeReport_encode]
  rw [reportsOf_reportLoop_succ, if_neg (by omega), hargs, hbyte, r.length_encode]

/-- A round with no complete report in front is the last. -/
theorem reportsOf_reportLoop_rest (h : ∀ r : AdvReport, ¬ r.encode <+: buf.bytes.drop ptr) :
    reportsOf (reportLoop buf ptr n) = [] := by
  cases n with
  | zero => rfl
  | succ n =>
    rw [reportsOf_reportLoop_succ, if_pos]
    by_contra hfits
    have hsize := size_eq_none_iff_prefix.mpr h
    have hlen : reportLength (buf.bytes.drop ptr) ≤ (buf.bytes.drop ptr).length := by
      rw [reportLength, buf.getD_drop_bytes (by omega), List.length_drop, buf.length_bytes]
      omega
    rw [show reportFraming.size (buf.bytes.drop ptr) = some _ from
      reportSize_eq_some.mpr ⟨rfl, hlen⟩] at hsize
    cases hsize

end Round

/-- The loop passes on the first complete reports, in order. -/
theorem reportsOf_reportLoop {buf : Span} {ptr n : Nat} {reports : List AdvReport}
    {tail : List UInt8} (h : ReportSplit (buf.bytes.drop ptr) reports tail) :
    reportsOf (reportLoop buf ptr n) = (reports.take n).map AdvReport.toAdvArgs := by
  induction reports generalizing ptr n with
  | nil =>
    have htail : tail = buf.bytes.drop ptr := h.join
    rw [List.take_nil, List.map_nil]
    exact reportsOf_reportLoop_rest (htail ▸ h.tail)
  | cons r reports ih =>
    cases n with
    | zero => rfl
    | succ n =>
      have hjoin : buf.bytes.drop ptr = r.encode ++ (reports.flatMap AdvReport.encode ++ tail) := by
        rw [← h.join, List.flatMap_cons, List.append_assoc]
      have hrest : ReportSplit (buf.bytes.drop (ptr + r.encode.length)) reports tail := by
        refine ⟨?_, h.tail⟩
        rw [← List.drop_drop, hjoin, List.drop_left]
      rw [reportsOf_reportLoop_report hjoin, ih hrest, List.take_succ_cons, List.map_cons]

/-- The calls of the callback, if one is registered. -/
theorem reportsOf_dispatchAdvReport {buf : Span} {reports : List AdvReport} {tail : List UInt8}
    (h : ReportSplit buf.bytes reports tail) (numReports : UInt8) :
    reportsOf (dispatchAdvReport true (some buf) numReports) =
      if 15 < numReports.toNat then []
      else (reports.take numReports.toNat).map AdvReport.toAdvArgs := by
  rw [dispatchAdvReport]
  by_cases hmany : 15 < numReports.toNat
  · have hcap : numReports > kMaxReports := UInt8.lt_iff_toNat_lt.mpr hmany
    rw [if_pos hmany, if_pos hcap]
    rfl
  · have hcap : ¬ numReports > kMaxReports := fun hgt => hmany (UInt8.lt_iff_toNat_lt.mp hgt)
    rw [if_neg hmany, if_neg hcap]
    exact reportsOf_reportLoop h

/-- Nothing is behind the reports of a list. -/
theorem reportSplit_flatMap (reports : List AdvReport) :
    ReportSplit (reports.flatMap AdvReport.encode) reports [] := by
  refine ⟨List.append_nil _, fun r hprefix => ?_⟩
  have hnil : r.encode = [] := List.prefix_nil.mp hprefix
  have hlen := congrArg List.length hnil
  rw [r.length_encode, List.length_nil] at hlen
  omega

/-- **Report splitting.** Every buffer is complete reports and a rest with no complete report in
front, in one way. With a callback registered, `dispatch_adv_report` passes on the first of these
reports, as many as the event names, in order and each with its own fields, and nothing if the
event names more than fifteen. It never reads outside the buffer. So the concatenation of at most
fifteen reports is split into these reports. -/
theorem dispatch_splits :
    (∀ (buf : Span) (numReports : UInt8),
      (∃! s : List AdvReport × List UInt8, ReportSplit buf.bytes s.1 s.2) ∧
      (∀ reports tail, ReportSplit buf.bytes reports tail →
        reportsOf (dispatchAdvReport true (some buf) numReports) =
          if 15 < numReports.toNat then []
          else (reports.take numReports.toNat).map AdvReport.toAdvArgs) ∧
      ∀ a, Action.access a ∈ (dispatchAdvReport true (some buf) numReports).log →
        a.Inside buf.extent) ∧
    ∀ (buf : Span) (reports : List AdvReport), buf.bytes = reports.flatMap AdvReport.encode →
      reports.length ≤ 15 →
      reportsOf (dispatchAdvReport true (some buf) (UInt8.ofNat reports.length)) =
        reports.map AdvReport.toAdvArgs := by
  refine ⟨fun buf numReports => ⟨existsUnique_reportSplit buf.bytes, ?_, ?_⟩, ?_⟩
  · intro reports tail h
    exact reportsOf_dispatchAdvReport h numReports
  · intro a ha
    exact dispatchAdvReport_inside true numReports _ ha
  · intro buf reports hbytes hfew
    have hsplit := reportSplit_flatMap reports
    rw [← hbytes] at hsplit
    have hcount : (UInt8.ofNat reports.length).toNat = reports.length :=
      UInt8.toNat_ofNat_of_lt' (Nat.lt_of_le_of_lt hfew (by decide))
    rw [reportsOf_dispatchAdvReport hsplit, hcount, if_neg (by omega), List.take_length]

end EnoceanCore.Ble
