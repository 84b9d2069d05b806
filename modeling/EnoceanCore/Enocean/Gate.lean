import EnoceanCore.Enocean.Invariant

/-!
# Nothing happens without authentication

A data callback, or a new sequence number in an entry that exists, takes an accepting call
of the crypto backend in the same step (`authentication_gate`). The key of that call is
traced to the last write of `handle_commissioning` to the entry: `KeyOrigin` is the
invariant that links the table to the writes so far.
-/

namespace EnoceanCore.Enocean

open Lib

/-! ## Where the keys come from -/

/-- The last device `handle_commissioning` wrote to a slot. -/
def lastStored (written : List (Fin kMaxDevices × Bool × EnoceanDevice)) (i : Fin kMaxDevices) :
    Option EnoceanDevice :=
  written.foldl (fun last w => if w.1 = i then some w.2.2 else last) none

theorem lastStored_concat (written : List (Fin kMaxDevices × Bool × EnoceanDevice))
    (w : Fin kMaxDevices × Bool × EnoceanDevice) (i : Fin kMaxDevices) :
    lastStored (written ++ [w]) i = if w.1 = i then some w.2.2 else lastStored written i := by
  simp [lastStored]

/-- Each active entry has the address and the key of the last write to it. -/
def KeyOrigin (driver : EnoceanDriver)
    (written : List (Fin kMaxDevices × Bool × EnoceanDevice)) : Prop :=
  ∀ i : Fin kMaxDevices, (driver.devices.get i).active = true →
    ∃ stored, lastStored written i = some stored ∧ stored.key = (driver.devices.get i).key ∧
      stored.bleAddr = (driver.devices.get i).bleAddr

theorem keyOrigin_step {driver : EnoceanDriver}
    {written : List (Fin kMaxDevices × Bool × EnoceanDevice)} (h : KeyOrigin driver written)
    (op : Op) : KeyOrigin (step driver op).val (written ++ stores (step driver op)) := by
  cases op with
  | init =>
    intro i hactive
    have hfree : (step driver .init).val.devices.get i = {} := get_replicate {} i
    rw [hfree] at hactive
    cases hactive
  | enableCommissioning => exact (List.append_nil written).symm ▸ h
  | disableCommissioning => exact (List.append_nil written).symm ▸ h
  | processAdvertisement crypto addr addrType advType rssi data =>
    unfold step
    cases processAdvertisement_outcome crypto driver addr addrType advType rssi data with
    | ignored _ hval _ hstores =>
      rw [hval, hstores, List.append_nil]
      exact h
    | known i _ _ _ hval _ hstores =>
      obtain ⟨seq, hseq⟩ := handled_fields driver.callbacks crypto (driver.devices.get i) rssi
        (payloadOf data)
      rw [hval, hstores, hseq, List.append_nil]
      intro j
      rw [get_setDevice]
      split
      · rename_i hj
        subst hj
        exact h j
      · exact h j
    | commissioned i _ _ _ _ _ hval _ hstores =>
      rw [hval, hstores]
      intro j
      rw [get_setDevice, lastStored_concat]
      split
      · rename_i hj
        exact fun _ => ⟨_, if_pos hj.symm, rfl, rfl⟩
      · rename_i hj
        rw [if_neg fun hij => hj hij.symm]
        exact h j

theorem keyOrigin_run (callbacks : EnoceanCallbacks) (ops : List Op) :
    KeyOrigin (run step (construct callbacks) ops).val
      (stores (run step (construct callbacks) ops)) := by
  induction ops using List.reverseRecOn with
  | nil =>
    intro i hactive
    have hfree : (construct callbacks).devices.get i = {} := get_replicate {} i
    rw [run_nil, Traced.val_pure, hfree] at hactive
    cases hactive
  | append_singleton ops op ih =>
    have hlast := keyOrigin_step ih op
    simpa only [run_append, run_cons, run_nil, stores, Traced.val_bind, Traced.proj_bind,
      Traced.val_pure, Traced.proj_pure, List.append_nil] using hlast

/-! ## The gate -/

/-- The step reports a data advertisement to the application. -/
def Dispatches (r : Traced Action EnoceanDriver) : Prop := ∃ e ∈ events r, e.isData = true

/-- A step that dispatches, or changes a sequence number that exists, is an accepted data
advertisement of a known device. -/
theorem accepted_of_effect {crypto : CryptoBackend} {driver : EnoceanDriver} {addr : List UInt8}
    {addrType advType : UInt8} {rssi : Int8} {data : Span}
    {r : Traced Action EnoceanDriver}
    (hr : AdvertisementOutcome crypto driver addr addrType advType rssi data r)
    (heffect : Dispatches r ∨ ∃ j : Fin kMaxDevices, (driver.devices.get j).active = true ∧
      (r.val.devices.get j).seqNum ≠ (driver.devices.get j).seqNum) :
    ∃ i, Listens driver addr addrType advType ∧ kDataPayloadMin ≤ (payloadOf data).size ∧
      findDevice driver.devices addr = some i ∧
      DataAdmissible (heardDevice (driver.devices.get i) rssi) (payloadOf data) ∧
      crypto (decryptCall (heardDevice (driver.devices.get i) rssi) (payloadOf data)) = true ∧
      r.val = setDevice driver i
        (acceptedDevice (heardDevice (driver.devices.get i) rssi) (payloadOf data)) ∧
      decrypts r =
        [(decryptCall (heardDevice (driver.devices.get i) rssi) (payloadOf data), true)] ∧
      (events r = [] ∨ events r = dataEvents driver.callbacks
        (heardDevice (driver.devices.get i) rssi) (payloadOf data)) := by
  cases hr with
  | ignored _ hval _ _ hevents =>
    rcases heffect with ⟨e, he, -⟩ | ⟨j, -, hj⟩
    · rw [hevents] at he
      cases he
    · rw [hval] at hj
      exact absurd rfl hj
  | commissioned i _ _ _ _ halloc hval _ _ hevents =>
    rcases heffect with ⟨e, he, hdata⟩ | ⟨j, hactive, hj⟩
    · rw [hevents] at he
      split at he
      · rw [List.mem_singleton.mp he] at hdata
        cases hdata
      · cases he
    · rw [hval, get_setDevice] at hj
      split at hj
      · rename_i hji
        subst hji
        have hfree := (Fin.find?_eq_some_iff.mp halloc).1
        rw [hactive] at hfree
        cases hfree
      · exact absurd rfl hj
  | known i hlisten hsize hfind hval hdecrypts _ hevents =>
    -- without an accepting answer the handler changes nothing and reports nothing
    have hquiet : ∀ {b}, (handleData driver.callbacks crypto
        (heardDevice (driver.devices.get i) rssi) (payloadOf data)).val =
          (b, heardDevice (driver.devices.get i) rssi) →
        events (handleData driver.callbacks crypto (heardDevice (driver.devices.get i) rssi)
          (payloadOf data)) = [] → False := by
      intro b hsame hnone
      rcases heffect with ⟨e, he, -⟩ | ⟨j, -, hj⟩
      · rw [hevents, hnone] at he
        cases he
      · rw [hval, hsame, get_setDevice] at hj
        split at hj
        · rename_i hji
          subst hji
          exact absurd rfl hj
        · exact absurd rfl hj
    refine ⟨i, hlisten, hsize, hfind, ?_⟩
    cases handleData_outcome driver.callbacks crypto (heardDevice (driver.devices.get i) rssi)
      (payloadOf data) with
    | reject _ hval' _ hevents' => exact (hquiet hval' hevents').elim
    | forged _ _ hval' _ hevents' => exact (hquiet hval' hevents').elim
    | undelivered hok hauth _ hval' hdecrypts' hevents' =>
      exact ⟨hok, hauth, hval.trans (by rw [hval']), hdecrypts.trans hdecrypts',
        Or.inl (hevents.trans hevents')⟩
    | deliver hok hauth _ hval' hdecrypts' hevents' =>
      exact ⟨hok, hauth, hval.trans (by rw [hval']), hdecrypts.trans hdecrypts',
        Or.inr (hevents.trans hevents')⟩

/-- Without an accepting answer nothing is dispatched and an entry that exists keeps all
but its signal strength. -/
theorem quiet_of_unaccepted {crypto : CryptoBackend} {driver : EnoceanDriver}
    {addr : List UInt8} {addrType advType : UInt8} {rssi : Int8} {data : Span}
    {r : Traced Action EnoceanDriver}
    (hr : AdvertisementOutcome crypto driver addr addrType advType rssi data r)
    (hno : ∀ call, (call, true) ∉ decrypts r) :
    ¬ Dispatches r ∧ ∀ j : Fin kMaxDevices, (driver.devices.get j).active = true →
      r.val.devices.get j = { driver.devices.get j with rssi := (r.val.devices.get j).rssi } := by
  have hnone : ¬ (Dispatches r ∨ ∃ j : Fin kMaxDevices, (driver.devices.get j).active = true ∧
      (r.val.devices.get j).seqNum ≠ (driver.devices.get j).seqNum) := by
    intro heffect
    obtain ⟨i, -, -, -, -, -, -, hdecrypts, -⟩ := accepted_of_effect hr heffect
    exact hno _ (hdecrypts ▸ List.mem_singleton_self _)
  refine ⟨fun h => hnone (Or.inl h), fun j hactive => ?_⟩
  have hseq : (r.val.devices.get j).seqNum = (driver.devices.get j).seqNum := by
    by_contra hne
    exact hnone (Or.inr ⟨j, hactive, hne⟩)
  cases hr with
  | ignored _ hval => rw [hval]
  | known i _ _ _ hval =>
    obtain ⟨seq, hhandled⟩ :=
      handled_fields driver.callbacks crypto (driver.devices.get i) rssi (payloadOf data)
    rw [hval, hhandled, get_setDevice] at hseq ⊢
    split at hseq
    · rename_i hj
      subst hj
      have hkept : seq = (driver.devices.get j).seqNum := hseq
      rw [if_pos rfl, hkept]
    · rename_i hj
      rw [if_neg hj]
  | commissioned i _ _ _ _ halloc hval =>
    rw [hval, get_setDevice]
    split
    · rename_i hj
      subst hj
      have hfree := (Fin.find?_eq_some_iff.mp halloc).1
      rw [hactive] at hfree
      cases hfree
    · rfl

/-- **The authentication gate.** After any run, a step dispatches a telegram or changes the
sequence number of an entry that exists only if in this step the backend is called once and
accepts a call that authenticates the whole payload under the key last written to the
sender's entry. Such a step touches no other entry and makes at most one callback, for the
sender's entry and fitting its type. A step without an accepting answer dispatches nothing
and changes nothing but a signal strength in the entries that exist. -/
theorem authentication_gate (callbacks : EnoceanCallbacks) (ops : List Op)
    (crypto : CryptoBackend) (addr : List UInt8) (addrType advType : UInt8) (rssi : Int8)
    (data : Span) :
    let before := run step (construct callbacks) ops
    let driver := before.val
    let r := processAdvertisement crypto driver addr addrType advType rssi data
    ((Dispatches r ∨ ∃ j : Fin kMaxDevices, (driver.devices.get j).active = true ∧
        (r.val.devices.get j).seqNum ≠ (driver.devices.get j).seqNum) →
      ∃ i call stored, (driver.devices.get i).active = true ∧
        (driver.devices.get i).bleAddr.addr.toList = addr ∧
        lastStored (stores before) i = some stored ∧
        stored.bleAddr.addr.toList = addr ∧
        decrypts r = [(call, true)] ∧ crypto call = true ∧
        Authenticates stored.key.toList addr (payloadOf data) call ∧
        (∀ j : Fin kMaxDevices, j ≠ i → r.val.devices.get j = driver.devices.get j) ∧
        (events r).length ≤ 1 ∧
        ∀ e ∈ events r, e.device = r.val.devices.get i ∧
          ((∃ action changed optData optLen, (driver.devices.get i).type = .switch ∧
              e = .button (r.val.devices.get i) action changed optData optLen) ∨
            ∃ report optData optLen, (driver.devices.get i).type ≠ .switch ∧
              e = .sensor (r.val.devices.get i) report optData optLen)) ∧
    ((∀ call, (call, true) ∉ decrypts r) →
      ¬ Dispatches r ∧ ∀ j : Fin kMaxDevices, (driver.devices.get j).active = true →
        r.val.devices.get j =
          { driver.devices.get j with rssi := (r.val.devices.get j).rssi }) := by
  intro before driver r
  have hr := processAdvertisement_outcome crypto driver addr addrType advType rssi data
  refine ⟨fun heffect => ?_, quiet_of_unaccepted hr⟩
  obtain ⟨i, hlisten, hsize, hfind, -, hauth, hval, hdecrypts, hevents⟩ :=
    accepted_of_effect hr heffect
  obtain ⟨hactive, haddr⟩ := findDevice_active hlisten.2.1 hfind
  obtain ⟨stored, hstored, hkey, hsame⟩ := keyOrigin_run callbacks ops i hactive
  have hcall := authenticates_decryptCall (heardDevice (driver.devices.get i) rssi) (payloadOf data)
    (Nat.le_trans (by decide) hsize)
  refine ⟨i, _, stored, hactive, haddr, hstored, ?_, hdecrypts, hauth, ?_, ?_, ?_, ?_⟩
  · rw [hsame]
    exact haddr
  · rw [hkey, ← haddr]
    exact hcall
  · intro j hj
    rw [show r.val = _ from hval, get_setDevice, if_neg hj]
  · rcases hevents with h | h
    · exact h ▸ Nat.zero_le _
    · exact h ▸ length_dataEvents _ _ _
  · intro e he
    rcases hevents with h | h
    · rw [h] at he
      cases he
    · have hentry : r.val.devices.get i =
          acceptedDevice (heardDevice (driver.devices.get i) rssi) (payloadOf data) := by
        rw [show r.val = _ from hval, get_setDevice, if_pos rfl]
      obtain ⟨hdevice, hkind⟩ := mem_dataEvents _ _ (h ▸ he)
      rw [hentry]
      refine ⟨hdevice, ?_⟩
      rcases hkind with ⟨htype, heq⟩ | ⟨htype, heq⟩
      · exact Or.inl ⟨_, _, _, _, htype, heq⟩
      · exact Or.inr ⟨_, _, _, htype, heq⟩

end EnoceanCore.Enocean
