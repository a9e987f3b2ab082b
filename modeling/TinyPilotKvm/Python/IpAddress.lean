/-
# `ipaddress.ip_address` of a text

An IPv4 address has four decimal octets, an IPv6 address hexadecimal parts between colons, where one
run of zeros may be left out as `::` and the last two parts may be written as an IPv4 address.
**After a `%` an IPv6 address has a scope id, which may be any text** that is not empty and has no
other `%` and no slash.

`isIpAddress_chars`: all characters but those of a scope id are digits, letters up to `f`, colons
and dots.
-/
import TinyPilotKvm.Lines
import TinyPilotKvm.Python.Values

namespace TinyPilotKvm
namespace PyStr

/-! ## 1. IPv4 -/

def isDecDigit (c : Nat) : Bool := 48 ≤ c && c ≤ 57

def isHexChar (c : Nat) : Bool := isDecDigit c || (65 ≤ c && c ≤ 70) || (97 ≤ c && c ≤ 102)

/-- `int` of decimal digits. -/
def decValue (s : PyStr) : Nat := s.foldl (fun n c => n * 10 + (c - 48)) 0

/-- `_parse_octet` raises no error. -/
def isOctet (s : PyStr) : Bool :=
  s ≠ [] && s.all isDecDigit && s.length ≤ 3 && (s = [48] || s.head? ≠ some 48) && decValue s ≤ 255

/-- `IPv4Address`: the address as a number. -/
def ipv4Address (s : PyStr) : Option Nat :=
  let octets := s.splitOn 46
  if 47 ∈ s then none
  else if octets.length = 4 && octets.all isOctet then
    some (octets.foldl (fun n octet => n * 256 + decValue octet) 0)
  else none

/-! ## 2. IPv6 -/

/-- `_parse_hextet` raises no error. -/
def isHextet (s : PyStr) : Bool := s ≠ [] && s.all isHexChar && s.length ≤ 4

/-- `'%x' % n`. -/
def hexText (n : Nat) : PyStr := (Nat.toDigits 16 n).map Char.toNat

/-- The parts between colons, with an IPv4 address at the end in two parts. -/
def withoutIpv4 (parts : List PyStr) : Option (List PyStr) :=
  match parts.getLast? with
  | none => some parts
  | some last =>
    if 46 ∈ last then
      (ipv4Address last).map fun n =>
        parts.dropLast ++ [hexText (n / 65536 % 65536), hexText (n % 65536)]
    else some parts

/-- The parts on one side of `::`, where `outer` is the one at the end of the address.  It may be
empty only if it is alone. -/
def besideSkip (outer : Option PyStr) (parts : List PyStr) : Option (List PyStr) :=
  if outer = some [] then if parts.length = 1 then some [] else none else some parts

/-- Whether the parts are those of an address. -/
def areHextets (parts : List PyStr) : Bool :=
  -- the parts but the first and the last
  let inner := parts.tail.dropLast
  if 9 < parts.length || 1 < inner.count [] then false
  else if inner.count [] = 1 then
    let skipIndex := inner.idxOf [] + 1
    let hi := parts.take skipIndex
    let lo := parts.drop (skipIndex + 1)
    match besideSkip hi.head? hi, besideSkip lo.getLast? lo with
    | some hi, some lo => hi.length + lo.length ≤ 7 && hi.all isHextet && lo.all isHextet
    | _, _ => false
  else parts.length = 8 && parts.all isHextet

/-- `_ip_int_from_string` of an IPv6 address raises no error. -/
def isIpv6Text (addr : PyStr) : Bool :=
  let parts := addr.splitOn 58
  3 ≤ parts.length && ((withoutIpv4 parts).map areHextets).getD false

/-- `_split_scope_id`: the address and the scope id. -/
def splitScopeId (s : PyStr) : Option (PyStr × Option PyStr) :=
  let addr := s.takeWhile (· ≠ 37)
  match s.dropWhile (· ≠ 37) with
  | [] => some (addr, none)
  | _ :: scopeId => if scopeId = [] ∨ 37 ∈ scopeId then none else some (addr, some scopeId)

/-- `IPv6Address` raises no error. -/
def isIpv6Address (s : PyStr) : Bool :=
  if 47 ∈ s then false
  else ((splitScopeId s).map fun r => isIpv6Text r.1).getD false

/-- `ip_address` raises no error. -/
def isIpAddress (s : PyStr) : Bool := (ipv4Address s).isSome || isIpv6Address s

example : ["192.168.12.82", "::ffff:e4:1:c0a8:c52", "fe80::1%eth0", "::", "1::",
    "::ffff:192.168.12.82"].all (fun s => isIpAddress (py s)) = true := by decide

example : ["192.168.012.82", "256.1.1.1", "1:2:3", "1::2::3", ":1::", "fe80::1%", "::1/64"].any
    (fun s => isIpAddress (py s)) = false := by decide

/-! ## 3. Characters -/

/-- A character of an address. -/
def IsAddressChar (c : Nat) : Prop := isHexChar c = true ∨ c = 46 ∨ c = 58

theorem isHexChar_of_isDecDigit {c : Nat} (h : isDecDigit c = true) : isHexChar c = true := by
  simp [isHexChar, h]

theorem isAddressChar_of_ipv4Address {s : PyStr} (h : (ipv4Address s).isSome) :
    ∀ c ∈ s, IsAddressChar c := by
  intro c hc
  unfold ipv4Address at h
  dsimp only at h
  split at h
  · simp at h
  · split at h
    · rename_i hoctets
      rw [Bool.and_eq_true, List.all_eq_true] at hoctets
      rcases eq_or_mem_splitOn 46 hc with rfl | ⟨octet, hoctet, hc⟩
      · exact Or.inr (Or.inl rfl)
      · have hdigits := hoctets.2 octet hoctet
        simp only [isOctet, Bool.and_eq_true, List.all_eq_true] at hdigits
        exact Or.inl (isHexChar_of_isDecDigit (hdigits.1.1.1.2 c hc))
    · simp at h

/-- Beside `::` the parts are hexadecimal, or there is an empty one alone. -/
theorem hextet_of_besideSkip {outer : Option PyStr} {parts parts' : List PyStr}
    (houter : ∀ part, outer = some part → part ∈ parts)
    (h : besideSkip outer parts = some parts') (hall : parts'.all isHextet = true) :
    ∀ part ∈ parts, part = [] ∨ isHextet part = true := by
  intro part hpart
  unfold besideSkip at h
  split at h
  · rename_i hempty
    split at h
    · rename_i hlength
      obtain ⟨only, rfl⟩ := List.length_eq_one_iff.mp hlength
      have hnil := List.mem_singleton.mp (houter [] hempty)
      exact Or.inl ((List.mem_singleton.mp hpart).trans hnil.symm)
    · cases h
  · cases h
    exact Or.inr (List.all_eq_true.mp hall part hpart)

/-- The part at the place of `::` is empty. -/
theorem getElem?_skipIndex {parts : List PyStr} (h : [] ∈ parts.tail.dropLast) :
    parts[parts.tail.dropLast.idxOf [] + 1]? = some [] := by
  have hlt := List.idxOf_lt_length_of_mem h
  have hget : parts.tail.dropLast[parts.tail.dropLast.idxOf []]? = some [] := by
    rw [List.getElem?_eq_getElem hlt, List.getElem_idxOf hlt]
  rw [List.getElem?_dropLast] at hget
  split at hget
  · rwa [← List.getElem?_tail]
  · cases hget

/-- **The parts of an address** are hexadecimal or empty. -/
theorem hextet_of_areHextets {parts : List PyStr} (h : areHextets parts = true) :
    ∀ part ∈ parts, part = [] ∨ isHextet part = true := by
  intro part hpart
  unfold areHextets at h
  dsimp only at h
  split at h
  · cases h
  · split at h
    · rename_i hskip
      have hmem : [] ∈ parts.tail.dropLast := List.count_pos_iff.mp (by omega)
      split at h
      · rename_i hi lo hhi hlo
        rw [Bool.and_eq_true, Bool.and_eq_true] at h
        obtain ⟨⟨-, hhiAll⟩, hloAll⟩ := h
        have hskipPart := getElem?_skipIndex hmem
        rw [← List.take_append_drop (parts.tail.dropLast.idxOf [] + 1) parts] at hpart
        rcases List.mem_append.mp hpart with hpart | hpart
        · exact hextet_of_besideSkip (fun _ => List.mem_of_head?) hhi hhiAll part hpart
        · obtain ⟨hlt, hget⟩ := List.getElem?_eq_some_iff.mp hskipPart
          rw [List.drop_eq_getElem_cons hlt, hget] at hpart
          rcases List.mem_cons.mp hpart with rfl | hpart
          · exact Or.inl rfl
          · exact hextet_of_besideSkip (fun _ => List.mem_of_getLast?) hlo hloAll part hpart
      · cases h
    · rw [Bool.and_eq_true] at h
      exact Or.inr (List.all_eq_true.mp h.2 part hpart)

theorem isAddressChar_of_isHextet {part : PyStr} (h : part = [] ∨ isHextet part = true) :
    ∀ c ∈ part, IsAddressChar c := by
  intro c hc
  rcases h with rfl | h
  · exact absurd hc List.not_mem_nil
  · simp only [isHextet, Bool.and_eq_true, List.all_eq_true] at h
    exact Or.inl (h.1.2 c hc)

/-- The parts are hexadecimal, or empty, or the last one is an IPv4 address. -/
theorem hextet_of_withoutIpv4 {parts : List PyStr}
    (h : ((withoutIpv4 parts).map areHextets).getD false = true) :
    ∀ part ∈ parts, (part = [] ∨ isHextet part = true) ∨ (ipv4Address part).isSome := by
  intro part hpart
  have hplain (hall : areHextets parts = true) :
      (part = [] ∨ isHextet part = true) ∨ (ipv4Address part).isSome :=
    Or.inl (hextet_of_areHextets hall part hpart)
  unfold withoutIpv4 at h
  split at h
  · exact hplain h
  · rename_i last hlast
    split at h
    · cases haddress : ipv4Address last with
      | none =>
        rw [haddress] at h
        cases h
      | some n =>
        rw [haddress] at h
        have hparts := hextet_of_areHextets h
        rw [← List.dropLast_append_getLast? last hlast] at hpart
        rcases List.mem_append.mp hpart with hpart | hpart
        · exact Or.inl (hparts part (List.mem_append_left _ hpart))
        · rw [List.mem_singleton.mp hpart, haddress]
          exact Or.inr rfl
    · exact hplain h

/-- **An IPv6 address without its scope id.** -/
theorem isAddressChar_of_isIpv6Text {addr : PyStr} (h : isIpv6Text addr = true) :
    ∀ c ∈ addr, IsAddressChar c := by
  intro c hc
  unfold isIpv6Text at h
  dsimp only at h
  rw [Bool.and_eq_true] at h
  rcases eq_or_mem_splitOn 58 hc with rfl | ⟨part, hpart, hc⟩
  · exact Or.inr (Or.inr rfl)
  · rcases hextet_of_withoutIpv4 h.2 part hpart with hhextet | hipv4
    · exact isAddressChar_of_isHextet hhextet c hc
    · exact isAddressChar_of_ipv4Address hipv4 c hc

/-- The scope id is what comes after the first `%`. -/
theorem splitScopeId_eq_some {s addr : PyStr} {scopeId : Option PyStr}
    (h : splitScopeId s = some (addr, scopeId)) :
    (scopeId = none ∧ s = addr) ∨ ∃ scope, scopeId = some scope ∧ s = addr ++ 37 :: scope := by
  unfold splitScopeId at h
  dsimp only at h
  have hsplit := List.takeWhile_append_dropWhile (p := fun c => decide (c ≠ 37)) (l := s)
  split at h
  · rename_i hrest
    cases h
    rw [hrest, List.append_nil] at hsplit
    exact Or.inl ⟨rfl, hsplit.symm⟩
  · rename_i c scope hrest
    have hpercent := List.head?_dropWhile_not (fun c => decide (c ≠ 37)) s
    rw [hrest] at hpercent
    simp only [List.head?_cons, ne_eq, decide_not, Bool.not_eq_eq_eq_not, Bool.not_false,
      decide_eq_true_eq] at hpercent
    split at h
    · cases h
    · cases h
      refine Or.inr ⟨scope, rfl, ?_⟩
      rw [hrest, hpercent] at hsplit
      exact hsplit.symm

/-- **The characters of an address**, but for those of a scope id. -/
theorem isIpAddress_chars {s : PyStr} (h : isIpAddress s = true) :
    (∀ c ∈ s, IsAddressChar c) ∨
      ∃ addr scope, s = addr ++ 37 :: scope ∧ ∀ c ∈ addr, IsAddressChar c := by
  unfold isIpAddress at h
  rcases Bool.or_eq_true _ _ ▸ h with h | h
  · exact Or.inl (isAddressChar_of_ipv4Address h)
  · unfold isIpv6Address at h
    split at h
    · cases h
    · cases hsplit : splitScopeId s with
      | none => simp [hsplit] at h
      | some r =>
        obtain ⟨addr, scopeId⟩ := r
        rw [hsplit] at h
        have haddr := isAddressChar_of_isIpv6Text h
        rcases splitScopeId_eq_some hsplit with ⟨-, rfl⟩ | ⟨scope, -, rfl⟩
        · exact Or.inl haddr
        · exact Or.inr ⟨addr, scope, rfl, haddr⟩

end PyStr
end TinyPilotKvm
