/-
# JSON texts (RFC 8259)

The grammar of JSON for texts in ASCII, a parser, and that the parser reads every text of the
grammar as what the grammar says it is (`parseJson_of_isJson`); so no text has two readings.

Numbers and strings are kept as they are written: a number is its own text, a string is what stands
between its quotes, escapes included.
-/
import TinyPilotKvm.Formats.Ascii
import Mathlib.Data.List.TakeWhile

namespace TinyPilotKvm

/-- A JSON value. -/
inductive JsonTree
  | null
  | bool (b : Bool)
  | num (text : List UInt8)
  | str (text : List UInt8)
  | arr (items : List JsonTree)
  | obj (members : List (List UInt8 × JsonTree))

/-- The value of the first member with the name `name`. -/
def JsonTree.get? (name : List UInt8) : JsonTree → Option JsonTree
  | .obj members => (members.find? fun m => m.1 == name).map fun m => m.2
  | _ => none

/-! ## 1. Characters -/

/-- White space. -/
def isJsonWs (c : UInt8) : Bool := c == 32 || c == 9 || c == 10 || c == 13

/-- What may stand in a string as it is. -/
def isJsonPlain (c : UInt8) : Bool := decide (32 ≤ c ∧ c < 128 ∧ c ≠ 34 ∧ c ≠ 92)

/-- `"\/bfnrt`: what may follow a backslash, other than `u`. -/
def isJsonEscape (c : UInt8) : Bool := [34, 92, 47, 98, 102, 110, 114, 116].contains c

/-- A digit of `\uXXXX`. -/
def isJsonHex (c : UInt8) : Bool := isHexDigit c || decide (65 ≤ c ∧ c ≤ 70)

/-- What a number is made of: digits and `+-.eE`. -/
def isNumberChar (c : UInt8) : Bool := isDigit c || [43, 45, 46, 101, 69].contains c

/-! ## 2. Numbers -/

/-- `["e" / "E"] [sign] 1*DIGIT`, or nothing. -/
def isExp : List UInt8 → Bool
  | [] => true
  | [_] => false
  | e :: sign :: ds =>
    (e == 101 || e == 69) &&
      (if sign == 43 || sign == 45 then !ds.isEmpty && ds.all isDigit
        else (sign :: ds).all isDigit)

/-- `["." 1*DIGIT] [exp]`. -/
def isFracExp : List UInt8 → Bool
  | 46 :: d :: rest => isDigit d && isExp (rest.dropWhile isDigit)
  | text => isExp text

/-- `("0" / digit1-9 *DIGIT) [frac] [exp]`. -/
def isUnsigned : List UInt8 → Bool
  | [] => false
  | d :: rest => if d == 48 then isFracExp rest else isDigit d && isFracExp (rest.dropWhile isDigit)

/-- `["-"] int [frac] [exp]`. -/
def isNumber : List UInt8 → Bool
  | [] => false
  | c :: rest => if c == 45 then isUnsigned rest else isUnsigned (c :: rest)

/-! ## 3. The grammar -/

/-- What stands between the quotes of a string. -/
inductive IsChars : List UInt8 → Prop
  | nil : IsChars []
  | plain {c : UInt8} {t : List UInt8} : isJsonPlain c = true → IsChars t → IsChars (c :: t)
  | escape {c : UInt8} {t : List UInt8} :
      isJsonEscape c = true → IsChars t → IsChars (92 :: c :: t)
  | unicode {a b c d : UInt8} {t : List UInt8} :
      [a, b, c, d].all isJsonHex = true → IsChars t → IsChars (92 :: 117 :: a :: b :: c :: d :: t)

/-- White space between two tokens. -/
def IsWs (t : List UInt8) : Prop := t.all isJsonWs = true

/-- The quoted string with the content `t`. -/
def quoted (t : List UInt8) : List UInt8 := 34 :: (t ++ [34])

mutual

/-- A value, without white space around it. -/
inductive IsValue : JsonTree → List UInt8 → Prop
  | null : IsValue .null (ascii "null")
  | boolTrue : IsValue (.bool true) (ascii "true")
  | boolFalse : IsValue (.bool false) (ascii "false")
  | num {t : List UInt8} : t.all isNumberChar = true → isNumber t = true → IsValue (.num t) t
  | str {t : List UInt8} : IsChars t → IsValue (.str t) (quoted t)
  | arrNil {w : List UInt8} : IsWs w → IsValue (.arr []) (91 :: (w ++ [93]))
  | arr {vs : List JsonTree} {t : List UInt8} : IsItems vs t → IsValue (.arr vs) (91 :: (t ++ [93]))
  | objNil {w : List UInt8} : IsWs w → IsValue (.obj []) (123 :: (w ++ [125]))
  | obj {ms : List (List UInt8 × JsonTree)} {t : List UInt8} : IsMembers ms t →
      IsValue (.obj ms) (123 :: (t ++ [125]))

/-- The values of an array, one at least, with the commas between them. -/
inductive IsItems : List JsonTree → List UInt8 → Prop
  | one {v : JsonTree} {w t w' : List UInt8} : IsWs w → IsValue v t → IsWs w' →
      IsItems [v] (w ++ (t ++ w'))
  | cons {v : JsonTree} {vs : List JsonTree} {w t w' u : List UInt8} : IsWs w → IsValue v t →
      IsWs w' → IsItems vs u → IsItems (v :: vs) (w ++ (t ++ (w' ++ 44 :: u)))

/-- The members of an object, one at least, with the commas between them. -/
inductive IsMembers : List (List UInt8 × JsonTree) → List UInt8 → Prop
  | one {k : List UInt8} {v : JsonTree} {w x y t z : List UInt8} : IsWs w → IsChars k →
      IsWs x → IsWs y → IsValue v t → IsWs z →
      IsMembers [(k, v)] (w ++ (quoted k ++ (x ++ 58 :: (y ++ (t ++ z)))))
  | cons {k : List UInt8} {v : JsonTree} {ms : List (List UInt8 × JsonTree)}
      {w x y t z u : List UInt8} : IsWs w → IsChars k → IsWs x →
      IsWs y → IsValue v t → IsWs z → IsMembers ms u →
      IsMembers ((k, v) :: ms)
        (w ++ (quoted k ++ (x ++ 58 :: (y ++ (t ++ (z ++ 44 :: u))))))

end

/-- A JSON text: a value with white space around it. -/
def IsJson (v : JsonTree) (text : List UInt8) : Prop :=
  ∃ w t w', IsWs w ∧ IsValue v t ∧ IsWs w' ∧ text = w ++ (t ++ w')

/-! ## 4. The parser -/

def skipWs (t : List UInt8) : List UInt8 := t.dropWhile isJsonWs

/-- The rest of a string, behind its first quote. -/
def scanString : List UInt8 → Option (List UInt8 × List UInt8)
  | [] => none
  | 34 :: rest => some ([], rest)
  | 92 :: 117 :: a :: b :: c :: d :: rest =>
    if [a, b, c, d].all isJsonHex then
      (scanString rest).map fun r => (92 :: 117 :: a :: b :: c :: d :: r.1, r.2)
    else none
  | 92 :: c :: rest =>
    if isJsonEscape c then (scanString rest).map fun r => (92 :: c :: r.1, r.2) else none
  | c :: rest => if isJsonPlain c then (scanString rest).map fun r => (c :: r.1, r.2) else none

/-- A number, or one of the three words. -/
def scanScalar (t : List UInt8) : Option (JsonTree × List UInt8) :=
  let number := t.takeWhile isNumberChar
  if isNumber number then some (.num number, t.dropWhile isNumberChar)
  else if (ascii "null").isPrefixOf t then some (.null, t.drop 4)
  else if (ascii "true").isPrefixOf t then some (.bool true, t.drop 4)
  else if (ascii "false").isPrefixOf t then some (.bool false, t.drop 5)
  else none

mutual

/-- A value at the beginning of a text, and what follows it. -/
def parseValue : Nat → List UInt8 → Option (JsonTree × List UInt8)
  | 0, _ => none
  | _ + 1, 34 :: t => (scanString t).map fun r => (.str r.1, r.2)
  | n + 1, 91 :: t =>
    match skipWs t with
    | 93 :: rest => some (.arr [], rest)
    | _ => (parseItems n t).map fun r => (.arr r.1, r.2)
  | n + 1, 123 :: t =>
    match skipWs t with
    | 125 :: rest => some (.obj [], rest)
    | _ => (parseMembers n t).map fun r => (.obj r.1, r.2)
  | _ + 1, t => scanScalar t

/-- The values of an array, and its closing bracket. -/
def parseItems : Nat → List UInt8 → Option (List JsonTree × List UInt8)
  | 0, _ => none
  | n + 1, t =>
    match parseValue n (skipWs t) with
    | none => none
    | some (v, t) =>
      match skipWs t with
      | 44 :: t => (parseItems n t).map fun r => (v :: r.1, r.2)
      | 93 :: t => some ([v], t)
      | _ => none

/-- The members of an object, and its closing brace. -/
def parseMembers : Nat → List UInt8 → Option (List (List UInt8 × JsonTree) × List UInt8)
  | 0, _ => none
  | n + 1, t =>
    match skipWs t with
    | 34 :: t =>
      match scanString t with
      | none => none
      | some (k, t) =>
        match skipWs t with
        | 58 :: t =>
          match parseValue n (skipWs t) with
          | none => none
          | some (v, t) =>
            match skipWs t with
            | 44 :: t => (parseMembers n t).map fun r => ((k, v) :: r.1, r.2)
            | 125 :: t => some ([(k, v)], t)
            | _ => none
        | _ => none
    | _ => none

end

/-- A whole text. -/
def parseJson (text : List UInt8) : Option JsonTree :=
  match parseValue (text.length + 1) (skipWs text) with
  | none => none
  | some (v, rest) => if skipWs rest = [] then some v else none

example : (parseJson (ascii " \x7b \"a\" : [1, -2.5e3, \"\\n\"], \"b\": \x7b\x7d\x7d")).bind
    (JsonTree.get? (ascii "b")) = some (.obj []) := by rfl

/-! ## 5. The parser reads the grammar -/

/-- A number ends before `rest`. -/
def Stops (rest : List UInt8) : Prop := ∀ c ∈ rest.head?, isNumberChar c = false

section

variable {w t rest u k : List UInt8} {c : UInt8} {n : Nat} {v : JsonTree}

theorem skipWs_append (hw : IsWs w) (t : List UInt8) : skipWs (w ++ t) = skipWs t :=
  List.dropWhile_append_of_pos (List.all_eq_true.mp hw)

theorem skipWs_cons (hc : isJsonWs c = false) : skipWs (c :: t) = c :: t :=
  List.dropWhile_cons_of_neg (by simp [hc])

theorem stops_cons (hc : isNumberChar c = false) : Stops (c :: t) := by
  intro d hd
  rw [List.head?_cons, Option.mem_some_iff] at hd
  exact hd ▸ hc

theorem not_numberChar_of_ws (hc : isJsonWs c = true) : isNumberChar c = false := by
  simp only [isJsonWs, Bool.or_eq_true, beq_iff_eq] at hc
  rcases hc with ((rfl | rfl) | rfl) | rfl
  all_goals decide

/-- No number runs over the white space behind it. -/
theorem stops_append (hw : IsWs w) (ht : Stops t) : Stops (w ++ t) := by
  cases w with
  | nil => exact ht
  | cons c w => exact stops_cons (not_numberChar_of_ws (List.all_eq_true.mp hw c (by simp)))

theorem scanString_append (h : IsChars t) (rest : List UInt8) :
    scanString (t ++ 34 :: rest) = some (t, rest) := by
  induction h with
  | nil => rw [List.nil_append, scanString]
  | @plain c t hc ht ih =>
    have hplain := hc
    simp only [isJsonPlain, decide_eq_true_eq] at hplain
    rw [List.cons_append, scanString, if_pos hc, ih]
    · rfl
    · exact hplain.2.2.1
    · exact fun a b c d rest h => absurd h hplain.2.2.2
    · exact fun c rest h => absurd h hplain.2.2.2
  | @escape c t hc ht ih =>
    have hne : c ≠ 117 := by
      rintro rfl
      exact absurd hc (by decide)
    rw [List.cons_append, List.cons_append, scanString, if_pos hc, ih]
    · rfl
    · exact fun a b c d rest h => absurd h hne
  | unicode hc ht ih =>
    simp only [List.cons_append]
    rw [scanString, if_pos hc, ih]
    rfl

theorem scanScalar_number (hall : t.all isNumberChar = true) (hnum : isNumber t = true)
    (hstop : Stops rest) : scanScalar (t ++ rest) = some (.num t, rest) := by
  have htake : (t ++ rest).takeWhile isNumberChar = t := by
    rw [List.takeWhile_append_of_pos (List.all_eq_true.mp hall)]
    cases rest with
    | nil => simp
    | cons c rest => rw [List.takeWhile_cons_of_neg (by simp [hstop c rfl]), List.append_nil]
  have hdrop : (t ++ rest).dropWhile isNumberChar = rest := by
    rw [List.dropWhile_append_of_pos (List.all_eq_true.mp hall)]
    cases rest with
    | nil => rfl
    | cons c rest => exact List.dropWhile_cons_of_neg (by simp [hstop c rfl])
  unfold scanScalar
  simp only [htake, hdrop, hnum, if_true]

/-- Where a value begins. -/
theorem IsValue.head (h : IsValue v t) :
    ∃ c u, t = c :: u ∧ isJsonWs c = false ∧ c ≠ 93 := by
  cases h with
  | null => exact ⟨_, _, rfl, by decide, by decide⟩
  | boolTrue => exact ⟨_, _, rfl, by decide, by decide⟩
  | boolFalse => exact ⟨_, _, rfl, by decide, by decide⟩
  | num hall hnum =>
    cases t with
    | nil => exact absurd hnum (by decide)
    | cons c u =>
      have hc : isNumberChar c = true := List.all_eq_true.mp hall c (by simp)
      refine ⟨c, u, rfl, ?_, ?_⟩
      · cases hws : isJsonWs c with
        | false => rfl
        | true => exact absurd hc (by simp [not_numberChar_of_ws hws])
      · rintro rfl
        exact absurd hc (by decide)
  | str _ => exact ⟨_, _, rfl, by decide, by decide⟩
  | arrNil _ => exact ⟨_, _, rfl, by decide, by decide⟩
  | arr _ => exact ⟨_, _, rfl, by decide, by decide⟩
  | objNil _ => exact ⟨_, _, rfl, by decide, by decide⟩
  | obj _ => exact ⟨_, _, rfl, by decide, by decide⟩

theorem skipWs_value (hw : IsWs w) (h : IsValue v t) (rest : List UInt8) :
    skipWs (w ++ (t ++ rest)) = t ++ rest := by
  obtain ⟨c, u, rfl, hc, -⟩ := h.head
  rw [skipWs_append hw, List.cons_append, skipWs_cons hc]

theorem skipWs_token (hw : IsWs w) (hc : isJsonWs c = false) :
    skipWs (w ++ c :: t) = c :: t := by
  rw [skipWs_append hw, skipWs_cons hc]

/-- An array that has items does not close at once. -/
theorem IsItems.head {vs : List JsonTree} (h : IsItems vs t) (rest : List UInt8) :
    ∃ c u, skipWs (t ++ rest) = c :: u ∧ c ≠ 93 := by
  cases h with
  | one hw hv hw' =>
    obtain ⟨c, u, hc, -, hne⟩ := hv.head
    rw [List.append_assoc, List.append_assoc, skipWs_value hw hv, hc]
    exact ⟨c, _, rfl, hne⟩
  | cons hw hv hw' hvs =>
    obtain ⟨c, u, hc, -, hne⟩ := hv.head
    rw [List.append_assoc, List.append_assoc, skipWs_value hw hv, hc]
    exact ⟨c, _, rfl, hne⟩

/-- An object that has members goes on with a quote. -/
theorem IsMembers.head {ms : List (List UInt8 × JsonTree)} (h : IsMembers ms t)
    (rest : List UInt8) : ∃ u, skipWs (t ++ rest) = 34 :: u := by
  cases h with
  | one hw hk _ _ _ _ =>
    rw [List.append_assoc, quoted, List.cons_append, List.cons_append,
      skipWs_token hw (by decide)]
    exact ⟨_, rfl⟩
  | cons hw hk _ _ _ _ _ =>
    rw [List.append_assoc, quoted, List.cons_append, List.cons_append,
      skipWs_token hw (by decide)]
    exact ⟨_, rfl⟩

/-- With the fuel `n` the parser reads the values whose texts are shorter. -/
def ReadsValues (n : Nat) : Prop :=
  ∀ {v t}, IsValue v t → t.length < n → ∀ {rest}, Stops rest →
    parseValue n (t ++ rest) = some (v, rest)

def ReadsItems (n : Nat) : Prop :=
  ∀ {vs t}, IsItems vs t → t.length + 1 < n → ∀ rest,
    parseItems n (t ++ 93 :: rest) = some (vs, rest)

def ReadsMembers (n : Nat) : Prop :=
  ∀ {ms t}, IsMembers ms t → t.length < n → ∀ rest,
    parseMembers n (t ++ 125 :: rest) = some (ms, rest)

theorem readsValues_succ (hitems : ReadsItems n) (hmembers : ReadsMembers n) :
    ReadsValues (n + 1) := by
  intro v t h hlen rest hstop
  cases h with
  | null => rfl
  | boolTrue => rfl
  | boolFalse => rfl
  | num hall hnum =>
    have hscan := scanScalar_number hall hnum hstop
    cases t with
    | nil => exact absurd hnum (by decide)
    | cons c u =>
      have hc : isNumberChar c = true := List.all_eq_true.mp hall c (by simp)
      rw [List.cons_append] at hscan ⊢
      rw [parseValue]
      · exact hscan
      all_goals
        rintro t' ht'
        obtain ⟨rfl, -⟩ := List.cons.inj ht'
        exact absurd hc (by decide)
  | str hchars =>
    rw [quoted, List.cons_append, List.append_assoc, parseValue, List.singleton_append,
      scanString_append hchars]
    rfl
  | arrNil hw =>
    simp only [List.cons_append, List.append_assoc, List.nil_append, parseValue,
      skipWs_token hw (by decide : isJsonWs 93 = false)]
  | arr h =>
    rename_i vs u
    rw [List.length_cons, List.length_append, List.length_singleton] at hlen
    have hread := hitems h (by omega) rest
    obtain ⟨c, u', hhead, hne⟩ := h.head (93 :: rest)
    simp only [List.cons_append, List.append_assoc, List.nil_append, parseValue, hhead]
    split
    · rename_i heq
      exact absurd (List.cons.inj heq).1 hne
    · rw [hread]
      rfl
  | objNil hw =>
    simp only [List.cons_append, List.append_assoc, List.nil_append, parseValue,
      skipWs_token hw (by decide : isJsonWs 125 = false)]
  | obj h =>
    rename_i ms u
    rw [List.length_cons, List.length_append, List.length_singleton] at hlen
    have hread := hmembers h (by omega) rest
    obtain ⟨u', hhead⟩ := h.head (125 :: rest)
    simp only [List.cons_append, List.append_assoc, List.nil_append, parseValue, hhead]
    rw [hread]
    rfl

theorem readsItems_succ (hvalues : ReadsValues n) (hitems : ReadsItems n) :
    ReadsItems (n + 1) := by
  intro vs t h hlen rest
  cases h with
  | one hw hv hw' =>
    rename_i v w u w'
    simp only [List.length_append] at hlen
    have hstop : Stops (w' ++ 93 :: rest) := stops_append hw' (stops_cons (by decide))
    have hread := hvalues hv (by omega) hstop
    simp only [List.append_assoc, parseItems, skipWs_value hw hv, hread,
      skipWs_token hw' (by decide : isJsonWs 93 = false)]
  | cons hw hv hw' hvs =>
    rename_i v vs w u w' u'
    simp only [List.length_append, List.length_cons] at hlen
    have hstop : Stops (w' ++ 44 :: (u' ++ 93 :: rest)) :=
      stops_append hw' (stops_cons (by decide))
    have hread := hvalues hv (by omega) hstop
    have hrest := hitems hvs (by omega) rest
    simp only [List.append_assoc, List.cons_append, parseItems, skipWs_value hw hv, hread,
      skipWs_token hw' (by decide : isJsonWs 44 = false), hrest]
    rfl

theorem readsMembers_succ (hvalues : ReadsValues n) (hmembers : ReadsMembers n) :
    ReadsMembers (n + 1) := by
  intro ms t h hlen rest
  have hquote : isJsonWs 34 = false := by decide
  have hcolon : isJsonWs 58 = false := by decide
  cases h with
  | one hw1 hk hw2 hw3 hv hw4 =>
    rename_i k v w1 w2 w3 u w4
    simp only [List.length_append, List.length_cons] at hlen
    have hstop : Stops (w4 ++ 125 :: rest) := stops_append hw4 (stops_cons (by decide))
    have hread := hvalues hv (by omega) hstop
    simp only [List.append_assoc, List.cons_append, List.nil_append, quoted, parseMembers,
      skipWs_token hw1 hquote, scanString_append hk, skipWs_token hw2 hcolon,
      skipWs_value hw3 hv, hread, skipWs_token hw4 (by decide : isJsonWs 125 = false)]
  | cons hw1 hk hw2 hw3 hv hw4 hms =>
    rename_i k v ms w1 w2 w3 u w4 u'
    simp only [List.length_append, List.length_cons] at hlen
    have hstop : Stops (w4 ++ 44 :: (u' ++ 125 :: rest)) :=
      stops_append hw4 (stops_cons (by decide))
    have hread := hvalues hv (by omega) hstop
    have hrest := hmembers hms (by omega) rest
    simp only [List.append_assoc, List.cons_append, List.nil_append, quoted, parseMembers,
      skipWs_token hw1 hquote, scanString_append hk, skipWs_token hw2 hcolon,
      skipWs_value hw3 hv, hread, skipWs_token hw4 (by decide : isJsonWs 44 = false), hrest]
    rfl

/-- Whatever the grammar derives is read, given the fuel. -/
theorem reads (n : Nat) : ReadsValues n ∧ ReadsItems n ∧ ReadsMembers n := by
  induction n with
  | zero =>
    exact ⟨fun _ h => absurd h (Nat.not_lt_zero _), fun _ h => absurd h (Nat.not_lt_zero _),
      fun _ h => absurd h (Nat.not_lt_zero _)⟩
  | succ n ih =>
    obtain ⟨hvalues, hitems, hmembers⟩ := ih
    exact ⟨readsValues_succ hitems hmembers, readsItems_succ hvalues hitems,
      readsMembers_succ hvalues hmembers⟩

/-- **The parser reads every text of the grammar.** -/
theorem parseJson_of_isJson {text : List UInt8} (h : IsJson v text) : parseJson text = some v := by
  obtain ⟨w, t, w', hw, hv, hw', rfl⟩ := h
  have hstop : Stops w' := by
    have hnil : Stops [] := fun c hc => absurd hc (by simp)
    have := stops_append hw' hnil
    rwa [List.append_nil] at this
  have hread := (reads ((w ++ (t ++ w')).length + 1)).1 hv
    (by simp only [List.length_append]; omega) hstop
  have hend : skipWs w' = [] := by
    have := skipWs_append hw' []
    rwa [List.append_nil] at this
  rw [parseJson, skipWs_value hw hv, hread]
  exact if_pos hend

/-- A number in decimal is a JSON number. -/
theorem isValue_decimal (n : Nat) : IsValue (.num (decimal n)) (decimal n) := by
  refine .num (List.all_eq_true.mpr fun c hc => ?_) ?_
  · rw [isNumberChar, isDigit_decimal n c hc, Bool.true_or]
  · rcases Nat.eq_zero_or_pos n with rfl | hpos
    · decide
    · obtain ⟨d, ds, hd, hlo, hhi⟩ := decimal_head hpos
      have hall := isDigit_decimal n
      rw [hd] at hall ⊢
      have hminus : (d == 45) = false := by
        rw [beq_eq_false_iff_ne]
        rintro rfl
        exact absurd hlo (by decide)
      have hzero : (d == 48) = false := by
        rw [beq_eq_false_iff_ne]
        rintro rfl
        exact absurd hlo (by decide)
      have hrest : ds.dropWhile isDigit = [] :=
        List.dropWhile_eq_nil_iff.mpr fun c hc => hall c (List.mem_cons_of_mem d hc)
      rw [isNumber, hminus, isUnsigned, hzero, hrest, hall d List.mem_cons_self]
      rfl

end

/-! ## 6. Printing -/

theorem isValue_bool (b : Bool) :
    IsValue (.bool b) (if b then ascii "true" else ascii "false") := by
  cases b
  · exact .boolFalse
  · exact .boolTrue

theorem isChars_of_plain : ∀ {t : List UInt8}, (∀ c ∈ t, isJsonPlain c = true) → IsChars t
  | [], _ => .nil
  | _ :: _, h => .plain (h _ List.mem_cons_self)
      (isChars_of_plain fun c hc => h c (List.mem_cons_of_mem _ hc))

/-- A member to be printed: its name, its value, and the value's text. -/
structure JsonMember where
  name : List UInt8
  value : JsonTree
  text : List UInt8

namespace JsonMember

/-- `"name": value`. -/
def print (m : JsonMember) : List UInt8 := quoted m.name ++ 58 :: 32 :: m.text

/-- The name may stand between quotes, and the text is the value's. -/
structure Ok (m : JsonMember) : Prop where
  name : IsChars m.name
  value : IsValue m.value m.text

/-- The last member, after a space or not. -/
theorem isMembers_one {m : JsonMember} (h : m.Ok) {w : List UInt8} (hw : IsWs w) :
    IsMembers [(m.name, m.value)] (w ++ m.print) := by
  have hone := IsMembers.one hw h.name (x := []) rfl (y := [32]) rfl h.value (z := []) rfl
  rwa [List.append_nil, List.nil_append, List.singleton_append] at hone

/-- A member before others. -/
theorem isMembers_cons {m : JsonMember} (h : m.Ok) {w : List UInt8} (hw : IsWs w)
    {ms : List (List UInt8 × JsonTree)} {u : List UInt8} (hms : IsMembers ms u) :
    IsMembers ((m.name, m.value) :: ms) (w ++ (m.print ++ 44 :: u)) := by
  have hcons := IsMembers.cons hw h.name (x := []) rfl (y := [32]) rfl h.value (z := []) rfl hms
  rw [List.nil_append, List.singleton_append, List.nil_append] at hcons
  rwa [print, List.append_assoc, List.cons_append, List.cons_append]

/-- Members with `, ` between them. -/
def printAll : List JsonMember → List UInt8
  | [] => []
  | [m] => m.print
  | m :: ms => m.print ++ 44 :: 32 :: printAll ms

/-- The object with the members `ms`. -/
def object (ms : List JsonMember) : JsonTree := .obj (ms.map fun m => (m.name, m.value))

def printObject (ms : List JsonMember) : List UInt8 := 123 :: (printAll ms ++ [125])

theorem isMembers_printAll : ∀ {ms : List JsonMember}, ms ≠ [] → (∀ m ∈ ms, m.Ok) →
    ∀ {w : List UInt8}, IsWs w →
      IsMembers (ms.map fun m => (m.name, m.value)) (w ++ printAll ms)
  | [], hne, _ => absurd rfl hne
  | [m], _, hok => fun hw => isMembers_one (hok m List.mem_cons_self) hw
  | m :: m' :: ms, _, hok => fun hw =>
    isMembers_cons (hok m List.mem_cons_self) hw
      (isMembers_printAll (List.cons_ne_nil m' ms)
        (fun x hx => hok x (List.mem_cons_of_mem m hx)) (w := [32]) rfl)

/-- **What is printed so is an object with these members.** -/
theorem isValue_printObject {ms : List JsonMember} (hok : ∀ m ∈ ms, m.Ok) :
    IsValue (object ms) (printObject ms) := by
  cases ms with
  | nil => exact .objNil (w := []) rfl
  | cons m ms => exact .obj (isMembers_printAll (List.cons_ne_nil m ms) hok (w := []) rfl)

end JsonMember

end TinyPilotKvm
