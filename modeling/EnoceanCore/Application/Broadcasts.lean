import EnoceanCore.Enocean.AdStructures
import EnoceanCore.Enocean.Payloads
import EnoceanCore.Ble.ScanLoop

/-!
# Broadcasts

What is on the air: a device sends an address and bytes, which are AD structures and a rest with no
complete structure in front (`Broadcast`; all bytes are, `exists_broadcast`). A scanner hands it to
`advertisement_cb`, while `run_impl` enables commissioning at some time (`application`).

The driver makes of a broadcast what a registry makes of the telegram in its first EnOcean
structure (`step_broadcast`), if it reads the structures as they are meant (`Broadcast.Readable`).
What is handed over before commissioning is enabled leaves no trace (`application_tells`).
-/

namespace EnoceanCore.Application

open Lib Enocean

/-! ## What follows the structures -/

/-- No complete structure is in front. -/
def NoStructure (rest : List UInt8) : Prop := ∀ s : AdStructure, ¬ s.encode <+: rest

/-- All there is are an EnOcean structure but for its last byte. -/
def CutRecord (rest : List UInt8) : Prop :=
  (rest.getD 0 0).toNat = rest.length ∧ (rest.drop 1).take 3 = [0xFF, 0xDA, 0x03]

instance (rest : List UInt8) : Decidable (CutRecord rest) :=
  inferInstanceAs (Decidable (_ ∧ _))

/-- The length byte promises a structure that is not there. -/
theorem NoStructure.short {len : UInt8} {more : List UInt8} (h : NoStructure (len :: more))
    (hlen : len ≠ 0) : more.length < len.toNat := by
  by_contra hlong
  have hpos : 0 < len.toNat := Nat.pos_iff_ne_zero.mpr fun hzero => hlen (UInt8.toNat.inj hzero)
  match more, hlong with
  | [], hlong => exact hlong hpos
  | type :: more, hlong =>
    have hfits : (more.take (len.toNat - 1)).length = len.toNat - 1 := by
      rw [List.length_take]
      simp only [List.length_cons] at hlong
      omega
    have hbyte := len.toNat_lt
    refine h ⟨type, more.take (len.toNat - 1), by omega⟩ ⟨more.drop (len.toNat - 1), ?_⟩
    show UInt8.ofNat ((more.take (len.toNat - 1)).length + 1) :: type ::
      (more.take (len.toNat - 1) ++ more.drop (len.toNat - 1)) = _
    rw [hfits, Nat.sub_add_cancel hpos, UInt8.ofNat_toNat, List.take_append_drop]

theorem noStructure_of_terminated {rest : List UInt8} (h : Terminated rest) : NoStructure rest := by
  rintro s ⟨more, heq⟩
  rcases h with rfl | ⟨junk, rfl⟩
  · cases heq
  · have hlen : UInt8.ofNat (s.data.length + 1) = 0 := (List.cons.inj heq).1
    have hnat := congrArg UInt8.toNat hlen
    rw [UInt8.toNat_ofNat_of_lt' (Nat.lt_of_le_of_lt s.short (by decide))] at hnat
    exact absurd hnat (Nat.succ_ne_zero _)

theorem not_cutRecord_of_terminated {rest : List UInt8} (h : Terminated rest) :
    ¬ CutRecord rest := by
  rintro ⟨hlen, hid⟩
  rcases h with rfl | ⟨junk, rfl⟩
  · cases hid
  · cases hlen

/-- Where no complete structure is, the loop selects at most a record without its last byte. -/
theorem cutRecord_of_selects {data : Span} {front rest : List UInt8}
    (h : data.bytes = front ++ rest) (hrest : NoStructure rest)
    (hsel : Selects data front.length) : CutRecord rest := by
  obtain ⟨⟨-, hzero, hend⟩, htype, hroom, hid, -⟩ := hsel
  have hlength := Span.size_of_bytes h
  rw [List.length_append] at hlength
  have hbyte : ∀ i < rest.length, data.byte (front.length + i) = rest.getD i 0 := by
    intro i hi
    rw [← Span.getD_drop_bytes data (by omega), h, List.drop_left]
  match rest, hrest with
  | len :: type :: x :: y :: more, hrest =>
    have h0 : data.byte front.length = len := hbyte 0 (by simp)
    have h1 : data.byte (front.length + 1) = type := hbyte 1 (by simp)
    have h2 : data.byte (front.length + 2) = x := hbyte 2 (by simp)
    have h3 : data.byte (front.length + 3) = y := hbyte 3 (by simp)
    rw [h0] at hzero
    have hshort := hrest.short hzero
    rw [adLen, h0] at hend
    simp only [List.length_cons] at hlength hshort
    have hlen : len.toNat = (len :: type :: x :: y :: more).length := by
      simp only [List.length_cons]
      omega
    have henocean : (kEnoceanManufacturerId : UInt16) = leHalf 0xDA 0x03 := by decide
    rw [companyId, h2, h3, henocean, leHalf_inj] at hid
    rw [h1] at htype
    obtain ⟨rfl, rfl⟩ := hid
    exact ⟨hlen, by rw [htype]; rfl⟩
  | [], _ | [_], _ | [_, _], _ | [_, _, _], _ =>
    simp only [List.length_nil, List.length_cons] at hlength
    omega

/-- The loop finds nothing in what follows the structures, unless it is a record without its last
byte. -/
theorem extractLoop_rest {data : Span} {front rest : List UInt8} (h : data.bytes = front ++ rest)
    (hrest : NoStructure rest) (hcut : ¬ CutRecord rest) :
    (extractLoop data front.length).val = Span.empty := by
  cases extractLoop_step data front.length with
  | stop _ _ hval => exact hval
  | select hsel => exact absurd (cutRecord_of_selects h hrest hsel) hcut
  | skip hskip hval =>
    rw [hval]
    apply extractLoop_last
    obtain ⟨⟨hsize, hzero, -⟩, -⟩ := hskip
    have hlength := Span.size_of_bytes h
    rw [List.length_append] at hlength
    match rest, hrest with
    | [], _ =>
      simp only [List.length_nil] at hlength
      omega
    | len :: more, hrest =>
      have h0 : data.byte front.length = len := Span.byte_of_append h
      rw [h0] at hzero
      have hshort := hrest.short hzero
      rw [List.length_cons] at hlength
      rw [adLen, h0]
      omega

/-- All bytes are structures and a rest with no structure in front. -/
theorem exists_layout (bytes : List UInt8) :
    ∃ structures rest, NoStructure rest ∧ layout structures rest = bytes := by
  by_cases hnone : NoStructure bytes
  · exact ⟨[], bytes, hnone, rfl⟩
  · obtain ⟨s, hprefix⟩ := not_forall.mp hnone
    obtain ⟨more, hbytes⟩ := not_not.mp hprefix
    have hshorter : more.length < bytes.length := by
      rw [← hbytes, List.length_append, AdStructure.encode, List.length_cons]
      omega
    obtain ⟨structures, rest, hrest, hmore⟩ := exists_layout more
    refine ⟨s :: structures, rest, hrest, ?_⟩
    rw [layout, List.flatMap_cons, List.append_assoc, ← hbytes, ← hmore]
    rfl
termination_by bytes.length

/-! ## Broadcasts -/

/-- An advertisement as a device sends it: AD structures, and bytes that are no structure. -/
structure Broadcast where
  advType : UInt8
  addrType : UInt8
  addr : Address
  structures : List AdStructure
  rest : List UInt8
  rssi : Int8
  complete : NoStructure rest
  fits : (layout structures rest).length < 256

namespace Broadcast

/-- The bytes of the advertisement. -/
def data (b : Broadcast) : List UInt8 := layout b.structures b.rest

/-- The report of a broadcast by the controller. -/
def report (b : Broadcast) : Ble.AdvReport where
  advType := b.advType
  addrType := b.addrType
  addr := b.addr.toList
  data := b.data
  rssi := b.rssi
  addr_length := Vector.length_toList
  data_length := b.fits

/-- The telegram of a broadcast: what its first EnOcean structure carries, if that is long
enough. -/
def telegram (b : Broadcast) : Option (List UInt8) :=
  if b.advType = kAdvNonconnInd ∧ b.addrType = kAddrRandom ∧
      kDataPayloadMin ≤ (recordPayload b.structures).length then
    some (recordPayload b.structures)
  else none

/-- No structure of the broadcast is misread: none in front of its record borrows the company id
from the next one, and it does not end in a record without its last byte. -/
def Readable (b : Broadcast) : Prop :=
  ¬ MissesRecord b.structures b.rest ∧
    ¬ ((∀ s ∈ b.structures, ¬ s.IsRecord) ∧ CutRecord b.rest)

/-- A broadcast is readable if its manufacturer structures have a company id and its structures
end with a zero byte or with the broadcast. -/
theorem readable_of_companyIds {b : Broadcast}
    (hids : ∀ s ∈ b.structures, s.type = 0xFF → 2 ≤ s.data.length) (hrest : Terminated b.rest) :
    b.Readable := by
  constructor
  · rintro ⟨before, s, after, hstructures, -, ⟨htype, hshort, -⟩, -⟩
    have hmem : s ∈ b.structures := by
      rw [hstructures]
      exact List.mem_append_right before List.mem_cons_self
    exact absurd (hids s hmem htype) (Nat.not_le.mpr hshort)
  · exact fun hcut => not_cutRecord_of_terminated hrest hcut.2

/-- Every report is that of a broadcast. -/
theorem exists_broadcast (r : Ble.AdvReport) : ∃ b : Broadcast, b.report = r := by
  obtain ⟨structures, rest, hrest, hdata⟩ := exists_layout r.data
  obtain ⟨a, haddr⟩ := address_of_length r.addr_length
  refine ⟨⟨r.advType, r.addrType, a, structures, rest, r.rssi, hrest, ?_⟩, ?_⟩
  · rw [hdata]
    exact r.data_length
  · obtain ⟨⟨advType, addrType, addr, data, rssi⟩, haddrLength, hdataLength⟩ := r
    obtain rfl : a.toList = addr := haddr
    obtain rfl : layout structures rest = data := hdata
    rfl

/-- Any view of the data of a readable broadcast carries what its first record does. -/
theorem payloadOf_of_bytes {b : Broadcast} (hreadable : b.Readable) {data : Span}
    (h : data.bytes = b.data) : (payloadOf data).bytes = recordPayload b.structures := by
  refine (extractLoop_layout b.structures (fun hnone front hfront => ?_) [] h).mpr hreadable.1
  exact extractLoop_rest hfront b.complete fun hcut => hreadable.2 ⟨hnone, hcut⟩

theorem payloadOf_of_telegram {b : Broadcast} (hreadable : b.Readable) {data : Span}
    (h : data.bytes = b.data) {payload : List UInt8} (htelegram : b.telegram = some payload) :
    (payloadOf data).bytes = payload ∧ b.advType = kAdvNonconnInd ∧ b.addrType = kAddrRandom ∧
      kDataPayloadMin ≤ (payloadOf data).size := by
  unfold telegram at htelegram
  split at htelegram
  · rename_i hguards
    obtain ⟨hadv, haddr, hsize⟩ := hguards
    rw [← Span.length_bytes, payloadOf_of_bytes hreadable h]
    exact ⟨Option.some.inj htelegram, hadv, haddr, hsize⟩
  · cases htelegram

/-- The driver finds no telegram in a broadcast without one. -/
theorem telegramOf_of_none {b : Broadcast} (hreadable : b.Readable) {data : Span}
    (h : data.bytes = b.data) (hnone : b.telegram = none) :
    Registry.telegramOf b.addr.toList b.addrType b.advType data = none := by
  apply Option.eq_none_iff_forall_ne_some.mpr
  intro found hfound
  obtain ⟨-, -, hadv, haddr, hsize⟩ := Registry.telegramOf_eq_some_iff.mp hfound
  rw [← Span.length_bytes, payloadOf_of_bytes hreadable h] at hsize
  rw [telegram, if_pos ⟨hadv, haddr, hsize⟩] at hnone
  cases hnone

end Broadcast

/-! ## The callback -/

/-- `advertisement_cb`, with a driver as its context. -/
def advertisementCb (crypto : CryptoBackend) (driver : EnoceanDriver) (args : Ble.CallbackArgs) :
    Traced Action EnoceanDriver :=
  processAdvertisement crypto driver args.addr args.addrType args.advType args.rssi args.data

/-- The callbacks of `run_impl`. -/
def callbacks : EnoceanCallbacks := ⟨true, true, true⟩

/-- The driver of `run_impl`: it is initialised, the scanner makes these calls, and commissioning
is enabled behind the first `n` of them. -/
def application (crypto : CryptoBackend) (n : Nat) (calls : List Ble.CallbackArgs) :
    Traced Action EnoceanDriver := do
  let driver := init (construct callbacks)
  let driver ← run (advertisementCb crypto) driver (calls.take n)
  let driver := enableCommissioning driver
  run (advertisementCb crypto) driver (calls.drop n)

/-- The call hands over the broadcast; where the data is stored does not matter. -/
structure Carries (args : Ble.CallbackArgs) (b : Broadcast) : Prop where
  addr : args.addr = b.addr.toList
  addrType : args.addrType = b.addrType
  advType : args.advType = b.advType
  rssi : args.rssi = b.rssi
  data : args.data.bytes = b.data

/-! ## What the application hears -/

/-- A registry hears a broadcast. -/
noncomputable def receive (crypto : CryptoBackend) (registry : Registry) (b : Broadcast) :
    Traced Event Registry :=
  match b.telegram with
  | some payload => registry.hear crypto b.addr b.rssi (Span.ofList payload)
  | none => pure registry

/-- A call that hands over a readable broadcast is the hearing of that broadcast. -/
theorem step_broadcast {registry : Registry} (hinit : registry.initialised = true)
    (crypto : CryptoBackend) {args : Ble.CallbackArgs} {b : Broadcast} (h : Carries args b)
    (hreadable : b.Readable) :
    registry.step (.processAdvertisement crypto args.addr args.addrType args.advType args.rssi
      args.data) = receive crypto registry b := by
  rw [h.addr, h.addrType, h.advType, h.rssi]
  unfold receive
  cases htelegram : b.telegram with
  | none =>
    apply Registry.step_other
    intro _
    exact Broadcast.telegramOf_of_none hreadable h.data htelegram
  | some payload =>
    obtain ⟨hpayload, hadv, haddr, hsize⟩ :=
      Broadcast.payloadOf_of_telegram hreadable h.data htelegram
    have hfound : Registry.telegramOf b.addr.toList b.addrType b.advType args.data =
        some (b.addr, payloadOf args.data) :=
      Registry.telegramOf_eq_some_iff.mpr ⟨rfl, rfl, hadv, haddr, hsize⟩
    rw [← Span.bytes_ofList payload] at hpayload
    exact (Registry.step_telegram hinit crypto b.rssi hfound).trans
      (hear_of_bytes_eq hpayload hsize crypto registry b.addr b.rssi)

/-- Hearing a broadcast changes nothing but the devices. -/
theorem receive_flags (crypto : CryptoBackend) (registry : Registry) (b : Broadcast) :
    (receive crypto registry b).val.initialised = registry.initialised := by
  unfold receive
  cases b.telegram with
  | none => rfl
  | some payload =>
    obtain ⟨devices, hframe⟩ :=
      Registry.exists_devices_hear crypto registry b.addr b.rssi (Span.ofList payload)
    dsimp only
    rw [hframe]

/-- Calls that hand over readable broadcasts are heard by the registry of the driver. -/
theorem run_advertisementCb (crypto : CryptoBackend) {registry : Registry}
    {driver : EnoceanDriver} (h : Implements registry driver)
    (hinit : registry.initialised = true) {calls : List Ble.CallbackArgs}
    {broadcasts : List Broadcast} (hcalls : List.Forall₂ Carries calls broadcasts)
    (hreadable : ∀ b ∈ broadcasts, b.Readable) :
    let r := run (advertisementCb crypto) driver calls
    let s := run (receive crypto) registry broadcasts
    Implements s.val r.val ∧ events r = s.log := by
  induction hcalls generalizing registry driver with
  | nil => exact ⟨h, rfl⟩
  | @cons args b calls broadcasts hcarries _ ih =>
    obtain ⟨hb, hreadable⟩ := List.forall_mem_cons.mp hreadable
    obtain ⟨hnext, hevents⟩ := h.step (.processAdvertisement crypto args.addr args.addrType
      args.advType args.rssi args.data)
    rw [step_broadcast hinit crypto hcarries hb] at hnext hevents
    obtain ⟨hlast, hrest⟩ := ih hnext ((receive_flags crypto registry b).trans hinit) hreadable
    refine ⟨hlast, ?_⟩
    rw [run_cons, run_cons, events, Traced.proj_bind, Traced.log_bind]
    exact congrArg₂ (· ++ ·) hevents hrest

/-- A registry without devices hears nothing as long as commissioning is disabled. -/
theorem step_silent {registry : Registry} (hempty : registry.devices = .empty)
    (hdisabled : registry.commissioningEnabled = false) (crypto : CryptoBackend)
    (args : Ble.CallbackArgs) :
    registry.step (.processAdvertisement crypto args.addr args.addrType args.advType args.rssi
      args.data) = pure registry := by
  by_cases hheard : registry.initialised = true ∧
      ∃ a p, Registry.telegramOf args.addr args.addrType args.advType args.data = some (a, p)
  · obtain ⟨hinit, a, p, htelegram⟩ := hheard
    rw [Registry.step_telegram hinit crypto args.rssi htelegram]
    apply Registry.hear_refused
    · rw [hempty]
      exact BoundedMap.lookup_empty _
    · intro hadmitted
      rw [hdisabled] at hadmitted
      exact absurd hadmitted.2.1 Bool.false_ne_true
  · apply Registry.step_other
    intro hinit
    apply Option.eq_none_iff_forall_ne_some.mpr
    intro telegram htelegram
    exact hheard ⟨hinit, telegram.1, telegram.2, htelegram⟩

theorem run_advertisementCb_silent (crypto : CryptoBackend) {registry : Registry}
    {driver : EnoceanDriver} (h : Implements registry driver) (hempty : registry.devices = .empty)
    (hdisabled : registry.commissioningEnabled = false) (calls : List Ble.CallbackArgs) :
    Implements registry (run (advertisementCb crypto) driver calls).val ∧
      events (run (advertisementCb crypto) driver calls) = [] := by
  induction calls generalizing driver with
  | nil => exact ⟨h, rfl⟩
  | cons args calls ih =>
    obtain ⟨hnext, hevents⟩ := h.step (.processAdvertisement crypto args.addr args.addrType
      args.advType args.rssi args.data)
    rw [step_silent hempty hdisabled crypto args] at hnext hevents
    obtain ⟨hlast, hrest⟩ := ih hnext
    refine ⟨hlast, ?_⟩
    rw [run_cons, events, Traced.proj_bind]
    exact List.append_eq_nil_iff.mpr ⟨hevents, hrest⟩

/-- The registry of the application, once commissioning is enabled. -/
def listening : Registry :=
  { callbacks := callbacks, initialised := true, commissioningEnabled := true }

/-- The driver stands for the registry `y.val`, and has made the callbacks of `y`. -/
structure Tells (x : Traced Action EnoceanDriver) (y : Traced Event Registry) : Prop where
  told : events x = y.log
  entry : ∀ a, entryOf x.val.devices a = y.val.devices.lookup a
  count : deviceCount x.val.devices = y.val.devices.size

/-- The application is told what an empty registry makes of the broadcasts that are handed over
after commissioning was enabled, if these are readable. -/
theorem application_tells (crypto : CryptoBackend) (n : Nat) {calls : List Ble.CallbackArgs}
    {broadcasts : List Broadcast} (hcalls : List.Forall₂ Carries calls broadcasts)
    (hreadable : ∀ b ∈ broadcasts.drop n, b.Readable) :
    Tells (application crypto n calls) (run (receive crypto) listening (broadcasts.drop n)) := by
  let before := run (advertisementCb crypto) (init (construct callbacks)) (calls.take n)
  obtain ⟨hbefore, hquiet⟩ := run_advertisementCb_silent crypto
    ((implements_construct callbacks).step .init).1 rfl rfl (calls.take n)
  have henabled : Implements listening (enableCommissioning before.val) :=
    (hbefore.step .enableCommissioning).1
  obtain ⟨hafter, hevents⟩ := run_advertisementCb crypto henabled rfl (List.forall₂_drop n hcalls)
    hreadable
  refine ⟨?_, hafter.entry, hafter.count⟩
  have hsplit : events (application crypto n calls) = events before ++
      events (run (advertisementCb crypto) (enableCommissioning before.val) (calls.drop n)) :=
    Traced.proj_bind _ _ _
  have hnone : events before = [] := hquiet
  rw [hsplit, hnone, hevents, List.nil_append]

/-- A switch sends its commissioning record behind its flags. -/
def sampleBroadcast : Broadcast where
  advType := kAdvNonconnInd
  addrType := kAddrRandom
  addr := sampleSwitch
  structures := [⟨0x01, [0x06], by decide⟩,
    ⟨0xFF, [0xDA, 0x03, 1, 0, 0, 0] ++ List.replicate 18 7, by decide⟩]
  rest := []
  rssi := -60
  complete := noStructure_of_terminated (Or.inl rfl)
  fits := by decide

theorem readable_sampleBroadcast : sampleBroadcast.Readable := by
  apply Broadcast.readable_of_companyIds _ (Or.inl rfl)
  intro s hs htype
  rcases List.mem_cons.mp hs with rfl | hs
  · exact absurd htype (by decide)
  · obtain rfl := List.mem_singleton.mp hs
    decide

end EnoceanCore.Application
