import EnoceanCore.Enocean.Commissioning

/-!
# The two layouts of a commissioning payload

A device that is no sensor sends its key right behind the sequence number (`plainLayout`); an
STM-550B sensor sends a marker byte in between (`stmLayout`). `handle_commissioning` tells the
layouts apart by the length of the payload and the byte at the place of the marker, without
the type of the device, so a plain payload of the length of the other layout whose key starts
with the marker is taken for the other layout (`storesCredentials_iff`).
-/

namespace EnoceanCore.Enocean

open Lib

/-! ## Layouts -/

abbrev Key : Type := Vector UInt8 kKeyLen

/-- Sequence number, key and further data. -/
def plainLayout (seq : UInt32) (key : Key) (tail : List UInt8) : List UInt8 :=
  leBytes seq ++ (key.toList ++ tail)

/-- Sequence number, marker, key and six further bytes. -/
def stmLayout (seq : UInt32) (key : Key) (trailer : Vector UInt8 6) : List UInt8 :=
  leBytes seq ++ kStmCommissioningMarker :: (key.toList ++ trailer.toList)

/-- The payload carries this number and this key, in the layout of the sender's type. -/
def Credentials (addr : List UInt8) (p : Span) (seq : UInt32) (key : Key) : Prop :=
  if detectDeviceType addr = .sensor then
    ∃ trailer : Vector UInt8 6, p.bytes = stmLayout seq key trailer
  else ∃ tail : List UInt8, 2 ≤ tail.length ∧ p.bytes = plainLayout seq key tail

/-- The parts of the payload that are taken, by offset and length. -/
def Action.slice? : Action → Option (Nat × Nat)
  | .access (.slice _ offset count) => some (offset, count)
  | _ => none

/-- The sender is known or a slot is free. -/
def HasRoom (driver : EnoceanDriver) (addr : List UInt8) : Prop :=
  findDevice driver.devices addr ≠ none ∨ allocateDevice driver.devices ≠ none

instance (driver : EnoceanDriver) (addr : List UInt8) : Decidable (HasRoom driver addr) :=
  inferInstanceAs (Decidable (_ ∨ _))

/-- The slot of the sender: the one it is found in, else the first free one. -/
def senderSlot (driver : EnoceanDriver) (addr : List UInt8) : Option (Fin kMaxDevices) :=
  (findDevice driver.devices addr).or (allocateDevice driver.devices)

/-- The entry is in use for the sender. -/
def IsEntryOf (addr : List UInt8) (device : EnoceanDevice) : Prop :=
  device.active = true ∧ (addr.length = kAddrLen → device.bleAddr.addr.toList = addr)

/-- The handler succeeds and stores one entry, that of the sender in the sender's slot, with
this number and this key, taken from this offset of the payload. -/
def StoresCredentials (driver : EnoceanDriver) (addr : List UInt8) (seq : UInt32) (key : Key)
    (offset : Nat) (r : Traced Action (Bool × EnoceanDriver)) : Prop :=
  r.proj Action.slice? = [(offset, kKeyLen)] ∧
    ∃ i fresh device, senderSlot driver addr = some i ∧ stores r = [(i, fresh, device)] ∧
      r.val = (true, setDevice driver i device) ∧ IsEntryOf addr device ∧
      device.seqNum = seq ∧ device.key = key

/-! ## The handler -/

theorem slices_readSeq (p : Span) : (readSeq p).proj Action.slice? = [] := rfl

theorem slices_readStmFormat (p : Span) : (readStmFormat p).proj Action.slice? = [] := by
  unfold readStmFormat
  split <;> rfl

/-- The handler takes nothing of a payload but the key. -/
theorem handleCommissioning_slices {driver : EnoceanDriver} {addr : List UInt8} {p : Span}
    (hok : Commissionable addr p) (hroom : HasRoom driver addr) (addrType : UInt8)
    (rssi : Int8) :
    (handleCommissioning driver addr addrType rssi p).proj Action.slice? =
      [(keyOffset p, kKeyLen)] := by
  have hsize : ¬ p.size < kCommissioningPayloadMin := Nat.not_lt.mpr hok.1
  have hsensor : ¬ (detectDeviceType addr = .sensor ∧ stmFormat p = false) := fun h => by
    rw [hok.2 h.1] at h
    cases h.2
  have hfits : ¬ keyOffset p + kKeyLen > p.size :=
    Nat.not_lt.mpr (Nat.le_trans (keyOffset_le p) hok.1)
  rw [keyOffset] at hfits ⊢
  unfold handleCommissioning
  cases hfind : findDevice driver.devices addr with
  | some i =>
    simp [hsize, hsensor, hfits, slices_readSeq, slices_readStmFormat, Action.slice?]
  | none =>
    cases halloc : allocateDevice driver.devices with
    | none => exact absurd (hroom.resolve_left (not_not_intro hfind)) (not_not_intro halloc)
    | some i =>
      simp [hsize, hsensor, hfits, slices_readSeq, slices_readStmFormat, Action.slice?]

/-- Where the entry of the sender is stored, the credentials are those of that entry. -/
theorem storesCredentials_of_store {driver : EnoceanDriver} {addr : List UInt8}
    {r : Traced Action (Bool × EnoceanDriver)} {i : Fin kMaxDevices} {isNew : Bool}
    {device : EnoceanDevice} (hslot : senderSlot driver addr = some i)
    (hval : r.val = (true, setDevice driver i device))
    (hstores : stores r = [(i, isNew, device)]) (hentry : IsEntryOf addr device) (seq : UInt32)
    (key : Key) (offset : Nat) :
    StoresCredentials driver addr seq key offset r ↔
      r.proj Action.slice? = [(offset, kKeyLen)] ∧ device.seqNum = seq ∧ device.key = key := by
  rw [StoresCredentials]
  refine and_congr_right fun _ => ?_
  constructor
  · intro hstored
    rcases hstored with ⟨j, fresh, stored, -, heq, -, -, hseq, hkey⟩
    rw [hstores] at heq
    cases heq
    exact ⟨hseq, hkey⟩
  · intro hread
    exact ⟨i, isNew, device, hslot, hstores, hval, hentry, hread⟩

/-- A refreshed entry is still that of the sender. -/
theorem isEntryOf_refreshedDevice {devices : DeviceTable} {addr : List UInt8}
    {i : Fin kMaxDevices} (hfind : findDevice devices addr = some i) (rssi : Int8) (p : Span) :
    IsEntryOf addr (refreshedDevice (devices.get i) rssi p) := by
  constructor
  · have hmatch := (Fin.find?_eq_some_iff.mp hfind).1
    rw [Bool.and_eq_true] at hmatch
    exact hmatch.1
  · intro hlen
    exact (findDevice_active hlen hfind).2

theorem isEntryOf_newDevice (old : EnoceanDevice) (addr : List UInt8) (addrType : UInt8)
    (rssi : Int8) (p : Span) : IsEntryOf addr (newDevice old addr addrType rssi p) :=
  ⟨rfl, fun hlen => overwrite_address old.bleAddr.addr hlen⟩

/-- A commissioning payload is stored for its sender, with its number and its key, if there is
room. -/
theorem storesCredentials_commissionable {driver : EnoceanDriver} {addr : List UInt8} {p : Span}
    (hok : Commissionable addr p) (addrType : UInt8) (rssi : Int8) (seq : UInt32) (key : Key)
    (offset : Nat) :
    StoresCredentials driver addr seq key offset
        (handleCommissioning driver addr addrType rssi p) ↔
      HasRoom driver addr ∧ keyOffset p = offset ∧ seqOf p = seq ∧ keyOf p = key := by
  have hoffset (hroom : HasRoom driver addr) :
      (handleCommissioning driver addr addrType rssi p).proj Action.slice? =
        [(offset, kKeyLen)] ↔ keyOffset p = offset := by
    rw [handleCommissioning_slices hok hroom]
    simp
  cases handleCommissioning_outcome driver addr addrType rssi p with
  | reject hwhy hval =>
    rcases hwhy with hno | ⟨hfind, halloc⟩
    · exact absurd hok hno
    · refine iff_of_false (fun hstored => ?_) fun h => h.1.elim (· hfind) (· halloc)
      obtain ⟨-, i, fresh, device, -, -, hstored, -⟩ := hstored
      rw [hval] at hstored
      exact Bool.false_ne_true (congrArg Prod.fst hstored)
  | refresh i _ hfind hval hstores =>
    have hroom : HasRoom driver addr := Or.inl (by rw [hfind]; exact Option.some_ne_none i)
    have hslot : senderSlot driver addr = some i := by rw [senderSlot, hfind, Option.some_or]
    rw [storesCredentials_of_store hslot hval hstores (isEntryOf_refreshedDevice hfind rssi p),
      hoffset hroom]
    exact (and_iff_right hroom).symm
  | fresh i _ hfind halloc hval hstores =>
    have hroom : HasRoom driver addr := Or.inr (by rw [halloc]; exact Option.some_ne_none i)
    have hslot : senderSlot driver addr = some i := by
      rw [senderSlot, hfind, Option.none_or, halloc]
    rw [storesCredentials_of_store hslot hval hstores (isEntryOf_newDevice _ addr _ rssi p),
      hoffset hroom]
    exact (and_iff_right hroom).symm

/-! ## Reading a layout -/

theorem keyOf_of_bytes {p : Span} {front rest : List UInt8} {key : Key}
    (h : p.bytes = front ++ (key.toList ++ rest)) (hoffset : front.length = keyOffset p) :
    keyOf p = key := by
  have hslice := Span.bytes_slice_of_append h
  rw [hoffset, Vector.length_toList] at hslice
  calc keyOf p = Buffer.overwrite key 0 (p.slice (keyOffset p) kKeyLen).bytes :=
        (overwrite_key key p (keyOffset p)).symm
    _ = key := by
        rw [hslice]
        apply Vector.toList_inj.mp
        rw [Buffer.toList_overwrite key (by simp)]
        simp

section Plain

variable {p : Span} {seq : UInt32} {key : Key} {tail : List UInt8}

theorem size_of_plainLayout (h : p.bytes = plainLayout seq key tail) :
    p.size = 20 + tail.length := by
  rw [Span.size_of_bytes h]
  simp only [plainLayout, leBytes, List.length_append, List.length_cons, List.length_nil,
    Vector.length_toList, kKeyLen]
  omega

theorem byte4_of_plainLayout (h : p.bytes = plainLayout seq key tail) : p.byte 4 = key[0] := by
  have hsize := size_of_plainLayout h
  rw [← Span.getElem_bytes p 4 (by rw [Span.length_bytes]; omega)]
  simp only [h, plainLayout, leBytes]
  rw [List.getElem_append_right (by simp), List.getElem_append_left (by simp)]
  rfl

/-- A plain payload is taken for the other layout by its length and the start of its key. -/
theorem stmFormat_plainLayout (h : p.bytes = plainLayout seq key tail) :
    stmFormat p = true ↔ tail.length = 7 ∧ key[0] = 0x3E := by
  rw [stmFormat, Bool.and_eq_true, beq_iff_eq, beq_iff_eq, size_of_plainLayout h,
    show p.byte kKeyOffset = key[0] from byte4_of_plainLayout h]
  refine and_congr ?_ Iff.rfl
  simp only [kStmCommissioningPayloadLen]
  omega

/-- A plain payload is read as it is laid out, unless it is taken for the other layout. -/
theorem plainLayout_read (h : p.bytes = plainLayout seq key tail) :
    keyOffset p = 4 ∧ seqOf p = seq ∧ keyOf p = key ↔ ¬ (tail.length = 7 ∧ key[0] = 0x3E) := by
  rw [← stmFormat_plainLayout h]
  constructor
  · rintro ⟨hoffset, -⟩ hstm
    rw [keyOffset, if_pos hstm] at hoffset
    cases hoffset
  · intro hstm
    have hoffset : keyOffset p = 4 := if_neg hstm
    exact ⟨hoffset, seqOf_of_bytes h, keyOf_of_bytes h hoffset.symm⟩

end Plain

section Stm

variable {p : Span} {seq : UInt32} {key : Key} {trailer : Vector UInt8 6}

/-- A payload with the marker is always read as it is laid out. -/
theorem stmLayout_read (h : p.bytes = stmLayout seq key trailer) :
    stmFormat p = true ∧ keyOffset p = 5 ∧ seqOf p = seq ∧ keyOf p = key := by
  have hsize : p.size = 27 := by
    rw [Span.size_of_bytes h]
    simp only [stmLayout, leBytes, List.length_append, List.length_cons, List.length_nil,
      Vector.length_toList, kKeyLen]
  have hmarker : p.byte 4 = 0x3E := Span.byte_of_append (a := leBytes seq) h
  have hstm : stmFormat p = true := by
    rw [stmFormat, Bool.and_eq_true, beq_iff_eq, beq_iff_eq]
    exact ⟨hsize, hmarker⟩
  have hoffset : keyOffset p = 5 := if_pos hstm
  have hkey : p.bytes =
      (leBytes seq ++ [kStmCommissioningMarker]) ++ (key.toList ++ trailer.toList) := by
    rw [h]
    rfl
  exact ⟨hstm, hoffset, seqOf_of_bytes h, keyOf_of_bytes hkey hoffset.symm⟩

end Stm

/-! ## The layout of the sender's type -/

theorem leBytes_seqOf (p : Span) :
    leBytes (seqOf p) = [p.byte 0, p.byte 1, p.byte 2, p.byte 3] := by
  rw [leBytes, seqOf, leWord_byte0, leWord_byte1, leWord_byte2, leWord_byte3]

/-- The bytes of a payload around a key at the offset `n`. -/
theorem bytes_around_key {p : Span} {n : Nat} (h : n + kKeyLen ≤ p.size) :
    p.bytes = (p.slice 0 n).bytes ++
      ((Vector.ofFn fun i : Fin kKeyLen => p.byte (n + i)).toList ++
        p.bytes.drop (n + kKeyLen)) := by
  have hkey : (Vector.ofFn fun i : Fin kKeyLen => p.byte (n + i)).toList =
      (p.bytes.drop n).take kKeyLen := by
    rw [← overwrite_key (Vector.replicate kKeyLen 0) p n, ← Span.bytes_slice p h,
      Buffer.toList_overwrite_zero _ (by simp), Span.length_bytes, Span.size_slice]
    simp
  rw [hkey, Span.bytes_slice p (by omega), List.drop_zero, ← List.drop_drop,
    List.take_append_drop, List.take_append_drop]

theorem exists_vector {n : Nat} {bytes : List UInt8} (h : bytes.length = n) :
    ∃ v : Vector UInt8 n, v.toList = bytes := by
  subst h
  exact ⟨⟨bytes.toArray, rfl⟩, rfl⟩

/-- Every payload that is long enough is in the plain layout. -/
theorem exists_plainLayout {p : Span} (h : kCommissioningPayloadMin ≤ p.size) :
    ∃ (seq : UInt32) (key : Key) (tail : List UInt8),
      2 ≤ tail.length ∧ p.bytes = plainLayout seq key tail := by
  have hsize : 22 ≤ p.size := h
  refine ⟨seqOf p, Vector.ofFn fun i => p.byte (4 + i), p.bytes.drop (4 + kKeyLen), ?_, ?_⟩
  · rw [List.length_drop, Span.length_bytes]
    exact Nat.le_sub_of_add_le hsize
  · rw [plainLayout, leBytes_seqOf]
    exact bytes_around_key (n := 4) (Nat.le_trans (by decide) hsize)

/-- Every payload with the size and the marker is in the layout with the marker. -/
theorem exists_stmLayout {p : Span} (h : stmFormat p = true) :
    ∃ (seq : UInt32) (key : Key) (trailer : Vector UInt8 6),
      p.bytes = stmLayout seq key trailer := by
  rw [stmFormat, Bool.and_eq_true, beq_iff_eq, beq_iff_eq] at h
  obtain ⟨hsize, hmarker⟩ := h
  have hlen : (p.bytes.drop (5 + kKeyLen)).length = 6 := by
    rw [List.length_drop, Span.length_bytes, hsize]
    rfl
  obtain ⟨trailer, htrailer⟩ := exists_vector hlen
  have hfront : (p.slice 0 5).bytes = leBytes (seqOf p) ++ [kStmCommissioningMarker] := by
    rw [leBytes_seqOf, ← hmarker]
    rfl
  have hbytes := bytes_around_key (p := p) (n := 5) (by rw [hsize]; decide)
  rw [hfront, List.append_assoc, List.singleton_append, ← htrailer] at hbytes
  refine ⟨seqOf p, Vector.ofFn fun i => p.byte (5 + i), trailer, ?_⟩
  rw [stmLayout, hbytes]

/-- The commissioning payloads of a sender are those in the layout of its type. -/
theorem commissionable_iff_credentials (addr : List UInt8) (p : Span) :
    Commissionable addr p ↔ ∃ seq key, Credentials addr p seq key := by
  unfold Commissionable Credentials
  by_cases hsensor : detectDeviceType addr = .sensor
  · simp only [hsensor, if_true, true_implies]
    constructor
    · intro hok
      exact exists_stmLayout hok.2
    · rintro ⟨seq, key, trailer, hbytes⟩
      obtain ⟨hstm, -⟩ := stmLayout_read hbytes
      refine ⟨?_, hstm⟩
      rw [stmFormat, Bool.and_eq_true, beq_iff_eq] at hstm
      rw [hstm.1]
      decide
  · simp only [hsensor, if_false, false_implies, and_true]
    constructor
    · exact exists_plainLayout
    · rintro ⟨seq, key, tail, hlong, hbytes⟩
      rw [size_of_plainLayout hbytes]
      exact Nat.add_le_add_left hlong 20

/-- The number stands in front in both layouts. -/
theorem Credentials.seqOf_eq {addr : List UInt8} {p : Span} {seq : UInt32} {key : Key}
    (h : Credentials addr p seq key) : seqOf p = seq := by
  unfold Credentials at h
  split at h
  · obtain ⟨trailer, hbytes⟩ := h
    exact seqOf_of_bytes hbytes
  · obtain ⟨tail, -, hbytes⟩ := h
    exact seqOf_of_bytes hbytes

/-- A payload in the plain layout that has the length and the marker of the other layout. -/
def TakenForStm (addr : List UInt8) (p : Span) : Prop :=
  detectDeviceType addr ≠ .sensor ∧ stmFormat p = true

instance (addr : List UInt8) (p : Span) : Decidable (TakenForStm addr p) :=
  inferInstanceAs (Decidable (_ ∧ _))

/-- The key is read as it is laid out, unless the payload is taken for the other layout. -/
theorem Credentials.keyOf_eq {addr : List UInt8} {p : Span} {seq : UInt32} {key : Key}
    (h : Credentials addr p seq key) (hlayout : ¬ TakenForStm addr p) : keyOf p = key := by
  unfold Credentials at h
  split at h
  · obtain ⟨trailer, hbytes⟩ := h
    exact (stmLayout_read hbytes).2.2.2
  · rename_i hsensor
    obtain ⟨tail, -, hbytes⟩ := h
    have hread := (plainLayout_read hbytes).mpr fun hstm =>
      hlayout ⟨hsensor, (stmFormat_plainLayout hbytes).mpr hstm⟩
    exact hread.2.2

/-! ## Both layouts -/

/-- **Commissioning payloads.** If there is room for the sender, and only then,

* the plain payload of a device that is no sensor is stored with its number and its key, taken
  from behind the number, unless its tail has seven bytes and its key starts with the marker;
* the payload of a sensor with the marker is always stored with its number and its key. -/
theorem storesCredentials_iff (driver : EnoceanDriver) (addr : List UInt8) (addrType : UInt8)
    (rssi : Int8) (p : Span) (seq : UInt32) (key : Key) :
    (∀ tail : List UInt8, detectDeviceType addr ≠ .sensor → 2 ≤ tail.length →
      p.bytes = plainLayout seq key tail →
      (StoresCredentials driver addr seq key 4
          (handleCommissioning driver addr addrType rssi p) ↔
        HasRoom driver addr ∧ ¬ (tail.length = 7 ∧ key[0] = 0x3E))) ∧
    ∀ trailer : Vector UInt8 6, detectDeviceType addr = .sensor →
      p.bytes = stmLayout seq key trailer →
      (StoresCredentials driver addr seq key 5
          (handleCommissioning driver addr addrType rssi p) ↔
        HasRoom driver addr) := by
  constructor
  · intro tail hsensor hlong hbytes
    have hsize : kCommissioningPayloadMin ≤ p.size := by
      rw [size_of_plainLayout hbytes]
      simp only [kCommissioningPayloadMin]
      omega
    have hok : Commissionable addr p := ⟨hsize, fun h => absurd h hsensor⟩
    rw [storesCredentials_commissionable hok, plainLayout_read hbytes]
  · intro trailer hsensor hbytes
    obtain ⟨hstm, hoffset, hseq, hkey⟩ := stmLayout_read hbytes
    have hsize : p.size = 27 := by
      rw [stmFormat, Bool.and_eq_true, beq_iff_eq] at hstm
      exact hstm.1
    have hok : Commissionable addr p := by
      refine ⟨?_, fun _ => hstm⟩
      rw [hsize]
      decide
    rw [storesCredentials_commissionable hok]
    exact and_iff_left ⟨hoffset, hseq, hkey⟩

/-- A switch with a tail of seven bytes and a key that does not start with the marker. -/
theorem storesCredentials_seven_byte_tail :
    let driver : EnoceanDriver := { callbacks := ⟨true, true, true⟩ }
    let p := Span.ofList (plainLayout 1 (Vector.replicate kKeyLen 0x11) [1, 2, 3, 4, 5, 6, 7])
    StoresCredentials driver [1, 2, 3, 4, 0xDA, 0x03] 1 (Vector.replicate kKeyLen 0x11) 4
      (handleCommissioning driver [1, 2, 3, 4, 0xDA, 0x03] 1 0 p) := by
  intro driver p
  have hroom : HasRoom { callbacks := ⟨true, true, true⟩ } [1, 2, 3, 4, 0xDA, 0x03] := by
    decide +kernel
  obtain ⟨hplain, -⟩ := storesCredentials_iff { callbacks := ⟨true, true, true⟩ }
    [1, 2, 3, 4, 0xDA, 0x03] 1 0 p 1 (Vector.replicate kKeyLen 0x11)
  apply (hplain [1, 2, 3, 4, 5, 6, 7] (by decide) (by decide) (by decide +kernel)).mpr
  exact ⟨hroom, by decide⟩

/-- A switch whose key starts with the marker: the key is taken one byte too far. -/
theorem not_storesCredentials_marker_key :
    let driver : EnoceanDriver := { callbacks := ⟨true, true, true⟩ }
    let key : Key := #v[0x3E, 1, 2, 3, 4, 5, 6, 7, 8, 9, 10, 11, 12, 13, 14, 15]
    let p := Span.ofList (plainLayout 1 key [1, 2, 3, 4, 5, 6, 7])
    detectDeviceType [1, 2, 3, 4, 0xDA, 0x03] = .switch ∧
      HasRoom driver [1, 2, 3, 4, 0xDA, 0x03] ∧
      ¬ ∃ offset, StoresCredentials driver [1, 2, 3, 4, 0xDA, 0x03] 1 key offset
        (handleCommissioning driver [1, 2, 3, 4, 0xDA, 0x03] 1 0 p) := by
  intro driver key p
  have hroom : HasRoom driver [1, 2, 3, 4, 0xDA, 0x03] := by
    decide +kernel
  have hok : Commissionable [1, 2, 3, 4, 0xDA, 0x03] p := by
    decide +kernel
  refine ⟨by decide, hroom, ?_⟩
  intro hexists
  rcases hexists with ⟨offset, hstored⟩
  obtain ⟨-, -, -, hkey⟩ := (storesCredentials_commissionable hok _ _ _ _ _).mp hstored
  exact absurd hkey (by decide +kernel)

end EnoceanCore.Enocean
