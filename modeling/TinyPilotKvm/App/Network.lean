/-
# Inspecting an interface (`inspect_interface` in `app/network.py`)

The JSON that `ip` prints is read field by field.  A field that is missing is skipped, but what is
there is taken for what the documentation shows: **an output that is no list of objects, an address
that is no text, or an entry of `addr_info` without a family ends in an exception**.

`inspect_interface_iff` says for which outputs a status is returned.
-/
import TinyPilotKvm.Python.Operations

namespace TinyPilotKvm

open Json

/-! ## 1. The code -/

/-- `InterfaceStatus`.  The address is whatever the output has there, or `None`. -/
structure InterfaceStatus where
  isConnected : Bool
  ipAddress : Json
  macAddress : Option PyStr

/-- `s.replace(':', '-')`. -/
def withDashes (s : PyStr) : PyStr := s.map fun c => if c = 58 then 45 else c

/-- The method call `v.replace(':', '-')`. -/
def replaceColons : Json → Except PyRaise PyStr
  | .str s => .ok (withDashes s)
  | _ => .error .attributeError

/-- `next((addr_info['local'] for addr_info in … if addr_info['family'] == 'inet'), None)`. -/
def firstInet : List Json → Except PyRaise Json
  | [] => .ok .null
  | addrInfo :: rest => do
    if (← addrInfo.item "family").isText "inet" then addrInfo.item "local" else firstInet rest

/-- The field `operstate` of `data`. -/
def readOperstate (data : Json) (status : InterfaceStatus) : Except PyRaise InterfaceStatus :=
  data.ifField "operstate" status fun operstate =>
    .ok { status with isConnected := operstate.isText "UP" }

/-- The field `address` of `data`. -/
def readAddress (data : Json) (status : InterfaceStatus) : Except PyRaise InterfaceStatus :=
  data.ifField "address" status fun address => do
    return { status with macAddress := some (← replaceColons address) }

/-- The field `addr_info` of `data`. -/
def readAddrInfo (data : Json) (status : InterfaceStatus) : Except PyRaise InterfaceStatus :=
  data.ifField "addr_info" status fun addrInfos => do
    return { status with ipAddress := ← firstInet (← addrInfos.elements) }

/-- The three fields. -/
def readInterface (data : Json) (status : InterfaceStatus) : Except PyRaise InterfaceStatus := do
  readAddrInfo data (← readAddress data (← readOperstate data status))

/-- What follows `json.loads`. -/
def inspectOutput (jsonOutput : Json) (status : InterfaceStatus) :
    Except PyRaise InterfaceStatus := do
  if (← jsonOutput.len) = 0 then return status
  readInterface (← jsonOutput.first) status

section

-- `json.loads`
variable (loads : PyStr → Except PyRaise Json)

/-- `inspect_interface`; `none`: the command fails. -/
def inspectInterface (ipCmdOutRaw : Option PyStr) : Except PyRaise InterfaceStatus :=
  let status : InterfaceStatus := ⟨false, .null, none⟩
  match ipCmdOutRaw with
  | none => .ok status
  | some text =>
    match loads text with
    | .error .jsonDecodeError => .ok status
    | .error e => .error e
    | .ok jsonOutput => inspectOutput jsonOutput status

/-! ## 2. The documented shape -/

/-- The output that the documentation shows; a field may be missing. -/
structure InterfaceData where
  operstate : Option PyStr
  address : Option PyStr
  /-- The families and the addresses. -/
  addrInfo : Option (List (PyStr × PyStr))

/-- An entry of `addr_info`. -/
def IsEntry (entry : Json) (info : PyStr × PyStr) : Prop :=
  ∃ fields, entry = .dict fields ∧ PyDict.get? fields "family" = some (.str info.1) ∧
    PyDict.get? fields "local" = some (.str info.2)

/-- A list of entries. -/
def IsAddrInfo (value : Json) (infos : List (PyStr × PyStr)) : Prop :=
  ∃ entries, value = .list entries ∧ List.Forall₂ IsEntry entries infos

structure IsInterface (fields : PyDict) (data : InterfaceData) : Prop where
  operstate : PyDict.get? fields "operstate" = data.operstate.map .str
  address : PyDict.get? fields "address" = data.address.map .str
  addrInfo : Option.Rel IsAddrInfo (PyDict.get? fields "addr_info") data.addrInfo

/-- A list that begins with an interface. -/
def IsDocumented (output : Json) (data : InterfaceData) : Prop :=
  ∃ fields rest, output = .list (.dict fields :: rest) ∧ IsInterface fields data

/-- The first address of the family `inet`, if any. -/
def inetAddress (infos : List (PyStr × PyStr)) : Json :=
  match infos.find? fun info => info.1 = py "inet" with
  | some info => .str info.2
  | none => .null

/-- What the status should say. -/
def InterfaceData.status (data : InterfaceData) : InterfaceStatus where
  isConnected := data.operstate = some (py "UP")
  ipAddress := inetAddress (data.addrInfo.getD [])
  macAddress := data.address.map withDashes

/-- A status is returned, and it is the one that a documented output should give. -/
structure InspectsWell (ipCmdOutRaw : Option PyStr) (r : Except PyRaise InterfaceStatus) :
    Prop where
  returns : ∃ status, r = .ok status
  documented : ∀ text output data, ipCmdOutRaw = some text → loads text = .ok output →
    IsDocumented output data → r = .ok data.status

/-! ## 3. The outputs that are handled -/

/-- The entries up to the first of the family `inet` are objects with a family, and that one has an
address. -/
inductive HandledEntries : List Json → Prop
  | nil : HandledEntries []
  | inet {fields : PyDict} {rest : List Json} {address : Json}
      (hfamily : PyDict.get? fields "family" = some (.str (py "inet")))
      (hlocal : PyDict.get? fields "local" = some address) : HandledEntries (.dict fields :: rest)
  | other {fields : PyDict} {rest : List Json} {family : Json}
      (hfamily : PyDict.get? fields "family" = some family) (hother : family ≠ .str (py "inet"))
      (hrest : HandledEntries rest) : HandledEntries (.dict fields :: rest)

/-- What may stand at `addr_info`. -/
inductive HandledAddrInfo : Json → Prop
  | emptyText : HandledAddrInfo (.str [])
  | emptyDict : HandledAddrInfo (.dict [])
  | list {entries : List Json} (h : HandledEntries entries) : HandledAddrInfo (.list entries)

/-- What may stand first in the list: an object, or a text or a list that has none of the names. -/
inductive HandledInterface : Json → Prop
  | lacks {data : Json} (operstate : data.Lacks "operstate") (address : data.Lacks "address")
      (addrInfo : data.Lacks "addr_info") : HandledInterface data
  | dict {fields : PyDict}
      (address : ∀ value, PyDict.get? fields "address" = some value → ∃ s, value = .str s)
      (addrInfo : ∀ value, PyDict.get? fields "addr_info" = some value → HandledAddrInfo value) :
      HandledInterface (.dict fields)

/-- What `json.loads` may give. -/
inductive HandledOutput : Except PyRaise Json → Prop
  | notJson : HandledOutput (.error .jsonDecodeError)
  | text (s : PyStr) : HandledOutput (.ok (.str s))
  | emptyDict : HandledOutput (.ok (.dict []))
  | emptyList : HandledOutput (.ok (.list []))
  | list {data : Json} {rest : List Json} (h : HandledInterface data) :
      HandledOutput (.ok (.list (data :: rest)))

theorem firstInet_ok_iff {entries : List Json} :
    (∃ address, firstInet entries = .ok address) ↔ HandledEntries entries := by
  constructor
  · induction entries with
    | nil =>
      intro _
      exact .nil
    | cons entry rest ih =>
      rintro ⟨address, h⟩
      unfold firstInet at h
      obtain ⟨family, hfamily, h⟩ := bind_eq_ok h
      obtain ⟨fields, rfl, hget⟩ := item_eq_ok hfamily
      split at h
      · rename_i hinet
        obtain ⟨_, hfields, hlocal⟩ := item_eq_ok h
        cases hfields
        rw [isText_iff.mp hinet] at hget
        exact .inet hget hlocal
      · rename_i hother
        exact .other hget (fun hinet => hother (isText_iff.mpr hinet)) (ih ⟨address, h⟩)
  · intro h
    induction h with
    | nil => exact ⟨.null, rfl⟩
    | @inet fields rest address hfamily hlocal =>
      refine ⟨address, ?_⟩
      unfold firstInet
      rw [item_dict hfamily, item_dict hlocal]
      rfl
    | @other fields rest family hfamily hother _ ih =>
      obtain ⟨address, ih⟩ := ih
      refine ⟨address, ?_⟩
      have hfalse : ¬ family.isText "inet" = true := fun htext => hother (isText_iff.mp htext)
      unfold firstInet
      rw [item_dict hfamily]
      change (if family.isText "inet" = true then _ else _) = _
      rw [if_neg hfalse]
      exact ih

theorem elements_firstInet_ok_iff {addrInfo : Json} :
    (∃ entries address, addrInfo.elements = .ok entries ∧ firstInet entries = .ok address) ↔
      HandledAddrInfo addrInfo := by
  constructor
  · rintro ⟨entries, address, helements, hinet⟩
    have hentries := firstInet_ok_iff.mp ⟨address, hinet⟩
    cases addrInfo with
    | str s =>
      cases s with
      | nil => exact .emptyText
      | cons c s =>
        -- the first character is no object
        cases helements
        cases hentries
    | list items =>
      cases helements
      exact .list hentries
    | dict fields =>
      cases fields with
      | nil => exact .emptyDict
      | cons field fields =>
        cases helements
        rw [PyDict.keys, List.map_cons, List.eraseDups_cons, List.map_cons] at hentries
        cases hentries
    | null | bool | int | float => cases helements
  · intro h
    cases h with
    | emptyText => exact ⟨[], .null, rfl, rfl⟩
    | emptyDict => exact ⟨[], .null, rfl, rfl⟩
    | @list entries h =>
      obtain ⟨address, haddress⟩ := firstInet_ok_iff.mpr h
      exact ⟨entries, address, rfl, haddress⟩

theorem replaceColons_eq_ok {v : Json} {s : PyStr} (h : replaceColons v = .ok s) :
    ∃ s, v = .str s := by
  cases v with
  | str s => exact ⟨s, rfl⟩
  | null | bool | int | float | list | dict => cases h

theorem exists_readOperstate (fields : PyDict) (status : InterfaceStatus) :
    ∃ status', readOperstate (.dict fields) status = .ok status' :=
  ifField_ok_iff.mpr (Or.inr ⟨fields, rfl, fun _ _ => ⟨_, rfl⟩⟩)

theorem readAddress_dict_ok_iff {fields : PyDict} {status : InterfaceStatus} :
    (∃ status', readAddress (.dict fields) status = .ok status') ↔
      ∀ value, PyDict.get? fields "address" = some value → ∃ s, value = .str s := by
  constructor
  · rintro ⟨status', h⟩ value hvalue
    unfold readAddress at h
    rw [ifField_dict, hvalue] at h
    obtain ⟨s, hs, -⟩ := bind_eq_ok h
    exact replaceColons_eq_ok hs
  · intro h
    refine ifField_ok_iff.mpr (Or.inr ⟨fields, rfl, fun value hvalue => ?_⟩)
    obtain ⟨s, rfl⟩ := h value hvalue
    exact ⟨_, rfl⟩

theorem readAddrInfo_dict_ok_iff {fields : PyDict} {status : InterfaceStatus} :
    (∃ status', readAddrInfo (.dict fields) status = .ok status') ↔
      ∀ value, PyDict.get? fields "addr_info" = some value → HandledAddrInfo value := by
  constructor
  · rintro ⟨status', h⟩ value hvalue
    unfold readAddrInfo at h
    rw [ifField_dict, hvalue] at h
    obtain ⟨entries, helements, h⟩ := bind_eq_ok h
    obtain ⟨address, hinet, -⟩ := bind_eq_ok h
    exact elements_firstInet_ok_iff.mp ⟨entries, address, helements, hinet⟩
  · intro h
    refine ifField_ok_iff.mpr (Or.inr ⟨fields, rfl, fun value hvalue => ?_⟩)
    obtain ⟨entries, address, helements, hinet⟩ := elements_firstInet_ok_iff.mpr (h value hvalue)
    refine ⟨{ status with ipAddress := address }, ?_⟩
    rw [helements]
    change (firstInet entries >>= _) = _
    rw [hinet]
    rfl

/-- **When the fields are read.** -/
theorem readInterface_ok_iff {data : Json} {status : InterfaceStatus} :
    (∃ status', readInterface data status = .ok status') ↔ HandledInterface data := by
  constructor
  · rintro ⟨status', h⟩
    obtain ⟨status₁, hoperstate, h⟩ := bind_eq_ok h
    obtain ⟨status₂, haddress, haddrInfo⟩ := bind_eq_ok h
    rcases ifField_ok_iff.mp ⟨_, hoperstate⟩ with hlacks | ⟨fields, rfl, -⟩
    · rcases ifField_ok_iff.mp ⟨_, haddress⟩ with hlacks' | ⟨fields, rfl, -⟩
      · rcases ifField_ok_iff.mp ⟨_, haddrInfo⟩ with hlacks'' | ⟨fields, rfl, -⟩
        · exact .lacks hlacks hlacks' hlacks''
        · cases hlacks
      · cases hlacks
    · exact .dict (readAddress_dict_ok_iff.mp ⟨_, haddress⟩)
        (readAddrInfo_dict_ok_iff.mp ⟨_, haddrInfo⟩)
  · intro h
    unfold readInterface
    cases h with
    | lacks hoperstate haddress haddrInfo =>
      refine ⟨status, ?_⟩
      rw [show readOperstate data status = .ok status from ifField_of_lacks hoperstate]
      change (readAddress data status >>= _) = _
      rw [show readAddress data status = .ok status from ifField_of_lacks haddress]
      exact ifField_of_lacks haddrInfo
    | @dict fields haddress haddrInfo =>
      obtain ⟨status₁, h₁⟩ := exists_readOperstate fields status
      rw [h₁]
      obtain ⟨status₂, h₂⟩ := (@readAddress_dict_ok_iff fields status₁).mpr haddress
      change ∃ status', (readAddress (.dict fields) status₁ >>= _) = .ok status'
      rw [h₂]
      exact readAddrInfo_dict_ok_iff.mpr haddrInfo

/-! ## 4. A documented output -/

theorem firstInet_documented {entries : List Json} {infos : List (PyStr × PyStr)}
    (h : List.Forall₂ IsEntry entries infos) :
    firstInet entries = .ok (inetAddress infos) := by
  induction h with
  | nil => rfl
  | @cons entry info entries infos hentry _ ih =>
    obtain ⟨fields, rfl, hfamily, hlocal⟩ := hentry
    unfold firstInet
    rw [item_dict hfamily, item_dict hlocal]
    change (if decide (info.1 = py "inet") = true then _ else _) = _
    unfold inetAddress
    rw [List.find?_cons]
    cases decide (info.1 = py "inet") with
    | true => rfl
    | false => exact ih

section

variable {fields : PyDict} {status : InterfaceStatus}

theorem readOperstate_documented {operstate : Option PyStr}
    (h : PyDict.get? fields "operstate" = operstate.map .str)
    (hstatus : status.isConnected = false) :
    readOperstate (.dict fields) status
      = .ok { status with isConnected := operstate = some (py "UP") } := by
  obtain ⟨_, ipAddress, macAddress⟩ := status
  obtain rfl := hstatus
  unfold readOperstate
  rw [ifField_dict, h]
  cases operstate with
  | none => rfl
  | some s =>
    have hup : isText "UP" (.str s) = decide (some s = some (py "UP")) :=
      decide_eq_decide.mpr Option.some_inj.symm
    change Except.ok (InterfaceStatus.mk (isText "UP" (.str s)) ipAddress macAddress) = _
    rw [hup]

theorem readAddress_documented {address : Option PyStr}
    (h : PyDict.get? fields "address" = address.map .str) (hstatus : status.macAddress = none) :
    readAddress (.dict fields) status
      = .ok { status with macAddress := address.map withDashes } := by
  obtain ⟨isConnected, ipAddress, _⟩ := status
  obtain rfl := hstatus
  unfold readAddress
  rw [ifField_dict, h]
  cases address with
  | none => rfl
  | some s => rfl

theorem readAddrInfo_documented {addrInfo : Option (List (PyStr × PyStr))}
    (h : Option.Rel IsAddrInfo (PyDict.get? fields "addr_info") addrInfo)
    (hstatus : status.ipAddress = .null) :
    readAddrInfo (.dict fields) status
      = .ok { status with ipAddress := inetAddress (addrInfo.getD []) } := by
  obtain ⟨isConnected, _, macAddress⟩ := status
  obtain rfl := hstatus
  unfold readAddrInfo
  rw [ifField_dict]
  generalize PyDict.get? fields "addr_info" = found at h ⊢
  cases h with
  | none => rfl
  | some hinfos =>
    obtain ⟨entries, rfl, hentries⟩ := hinfos
    change (firstInet entries >>= _) = _
    rw [firstInet_documented hentries]
    rfl

/-- **A documented interface gives the status that it should.** -/
theorem readInterface_documented {data : InterfaceData} (h : IsInterface fields data) :
    readInterface (.dict fields) ⟨false, .null, none⟩ = .ok data.status := by
  unfold readInterface
  rw [readOperstate_documented h.operstate rfl]
  change (readAddress _ _ >>= _) = _
  rw [readAddress_documented h.address rfl]
  exact readAddrInfo_documented h.addrInfo rfl

end

variable (loads : PyStr → Except PyRaise Json)

theorem lacks_of_length {name : String} {c : Nat} (h : 1 < (py name).length) :
    Json.Lacks name (.str [c]) :=
  .str fun hinfix => absurd hinfix.length_le (Nat.not_le.mpr h)

theorem inspectOutput_ok_iff {output : Json} {status : InterfaceStatus} :
    (∃ status', inspectOutput output status = .ok status') ↔ HandledOutput (.ok output) := by
  cases output with
  | str s =>
    refine iff_of_true ?_ (.text s)
    cases s with
    | nil => exact ⟨status, rfl⟩
    | cons c s =>
      -- a text of one character has no name in it
      change ∃ status', readInterface (.str [c]) status = .ok status'
      exact readInterface_ok_iff.mpr (.lacks (lacks_of_length (by decide))
        (lacks_of_length (by decide)) (lacks_of_length (by decide)))
  | list items =>
    cases items with
    | nil => exact iff_of_true ⟨status, rfl⟩ .emptyList
    | cons data rest =>
      change (∃ status', readInterface data status = .ok status') ↔ _
      rw [readInterface_ok_iff]
      constructor
      · intro h
        exact .list h
      · intro h
        cases h with
        | list h => exact h
  | dict fields =>
    cases fields with
    | nil => exact iff_of_true ⟨status, rfl⟩ .emptyDict
    | cons field fields =>
      constructor
      · rintro ⟨status', h⟩
        obtain ⟨n, hn, h⟩ := bind_eq_ok h
        obtain rfl := Except.ok.inj hn
        rw [if_neg (keys_cons_ne_nil field fields)] at h
        cases h
      · intro h
        cases h
  | null | bool | int | float =>
    constructor
    · rintro ⟨status', h⟩
      cases h
    · intro h
      cases h

/-- **A status is returned** exactly if what `json.loads` gives is handled. -/
theorem inspectInterface_some_ok_iff {text : PyStr} :
    (∃ status, inspectInterface loads (some text) = .ok status) ↔ HandledOutput (loads text) := by
  unfold inspectInterface
  dsimp only
  cases loads text with
  | ok output => exact inspectOutput_ok_iff
  | error e =>
    cases e with
    | jsonDecodeError => exact iff_of_true ⟨_, rfl⟩ .notJson
    | typeError | keyError | indexError | attributeError | valueError | recursionError =>
      constructor
      · rintro ⟨status, h⟩
        cases h
      · intro h
        cases h

/-- **Inspecting an interface goes well** if and only if `ip` fails, or its output is handled. -/
theorem inspect_interface_iff (ipCmdOutRaw : Option PyStr) :
    InspectsWell loads ipCmdOutRaw (inspectInterface loads ipCmdOutRaw) ↔
      ∀ text, ipCmdOutRaw = some text → HandledOutput (loads text) := by
  constructor
  · rintro h text rfl
    exact (inspectInterface_some_ok_iff loads).mp h.returns
  · intro h
    refine ⟨?_, ?_⟩
    · cases ipCmdOutRaw with
      | none => exact ⟨_, rfl⟩
      | some text => exact (inspectInterface_some_ok_iff loads).mpr (h text rfl)
    · rintro text output data rfl hloads ⟨fields, rest, rfl, hdata⟩
      unfold inspectInterface
      dsimp only
      rw [hloads]
      exact readInterface_documented hdata

/-- An entry of `addr_info` that is empty, and an output that is `null`. -/
theorem empty_entry_raises :
    let text := py "[\x7b\"operstate\": \"UP\", \"addr_info\": [\x7b\x7d]\x7d]"
    let loads : PyStr → Except PyRaise Json := fun s =>
      if s = text then .ok (.list [.dict [(py "operstate", .str (py "UP")),
        (py "addr_info", .list [.dict []])]])
      else if s = py "null" then .ok .null
      else .error .jsonDecodeError
    inspectInterface loads (some text) = .error .keyError ∧
      inspectInterface loads (some (py "null")) = .error .typeError ∧
      ¬ InspectsWell loads (some text) (inspectInterface loads (some text)) ∧
      ¬ InspectsWell loads (some (py "null")) (inspectInterface loads (some (py "null"))) := by
  intro text loads
  have hentry : inspectInterface loads (some text) = .error .keyError := by rfl
  have hnull : inspectInterface loads (some (py "null")) = .error .typeError := by rfl
  refine ⟨hentry, hnull, ?_, ?_⟩
  · rw [hentry]
    rintro ⟨⟨status, h⟩, -⟩
    cases h
  · rw [hnull]
    rintro ⟨⟨status, h⟩, -⟩
    cases h

end

end TinyPilotKvm
