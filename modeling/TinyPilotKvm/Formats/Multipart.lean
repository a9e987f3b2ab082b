/-
# Multipart streams

A response over HTTP whose body is an endless `multipart/x-mixed-replace`: a status line, a block of
header fields, and parts.  A part is a block of header fields and a body; it is complete when the
delimiter behind it has come.  A part that says its length is read by that length, any other up to
the first delimiter.

`parseMultipart` reads what has been written so far and gives the complete parts and what is left of
the next one.  It refuses (`none`) a header line without a name, a length that is not a number, and
a part that does not end in a delimiter where its length says so.
-/
import TinyPilotKvm.Formats.Ascii
import Mathlib.Data.List.TakeWhile
import Mathlib.Data.List.Infix

namespace TinyPilotKvm

/-! ## 1. Lines and fields -/

def crlf : List UInt8 := [13, 10]

/-- The text up to the first CRLF, and what follows it. -/
def scanLine : List UInt8 → Option (List UInt8 × List UInt8)
  | [] => none
  | 13 :: 10 :: rest => some ([], rest)
  | c :: rest => (scanLine rest).map fun r => (c :: r.1, r.2)

/-- A header field. -/
structure Field where
  name : List UInt8
  value : List UInt8

/-- White space before a value. -/
def isOws (c : UInt8) : Bool := c == 32 || c == 9

/-- `name ":" OWS value`. -/
def parseField (line : List UInt8) : Option Field :=
  let name := line.takeWhile (· != 58)
  match line.dropWhile (· != 58) with
  | [] => none
  | _ :: value => if name = [] then none else some ⟨name, value.dropWhile isOws⟩

/-- How reading what has come so far ends. -/
inductive Scan (α : Type)
  | done (a : α) (rest : List UInt8)
  | incomplete
  | malformed

/-- Lines up to an empty one. -/
def parseFields : Nat → List UInt8 → Scan (List Field)
  | 0, _ => .malformed
  | n + 1, t =>
    match scanLine t with
    | none => .incomplete
    | some ([], rest) => .done [] rest
    | some (c :: line, rest) =>
      match parseField (c :: line) with
      | none => .malformed
      | some field =>
        match parseFields n rest with
        | .done fields rest => .done (field :: fields) rest
        | .incomplete => .incomplete
        | .malformed => .malformed

/-- A block of header fields, with the empty line behind it. -/
def headerBlock (t : List UInt8) : Scan (List Field) := parseFields (t.length + 1) t

/-- The value of the first field with the name, in whatever case. -/
def fieldValue (fields : List Field) (name : String) : Option (List UInt8) :=
  (fields.find? fun f => asciiCaseEq f.name (ascii name)).map fun f => f.value

/-! ## 2. Parts -/

/-- The text before the first `pat`, and what follows it. -/
def findPat (pat : List UInt8) : List UInt8 → Option (List UInt8 × List UInt8)
  | [] => if pat = [] then some ([], []) else none
  | c :: t =>
    if pat.isPrefixOf (c :: t) then some ([], (c :: t).drop pat.length)
    else (findPat pat t).map fun r => (c :: r.1, r.2)

/-- `boundary=` of a content type, without quotes. -/
def boundaryParam (value : List UInt8) : Option (List UInt8) :=
  (findPat (ascii "boundary=") value).map fun r => r.2.takeWhile (· != 59)

/-- `--boundary` on a line of its own. -/
def dashLine (boundary : List UInt8) : List UInt8 := ascii "--" ++ boundary ++ crlf

/-- What stands behind a body. -/
def delimiter (boundary : List UInt8) : List UInt8 := crlf ++ dashLine boundary

structure Part where
  fields : List Field
  body : List UInt8

/-- A text that has to come next. -/
def expect (pat t : List UInt8) : Scan Unit :=
  if pat.isPrefixOf t then .done () (t.drop pat.length)
  else if t.isPrefixOf pat then .incomplete
  else .malformed

def parsePart (boundary t : List UInt8) : Scan Part :=
  match headerBlock t with
  | .incomplete => .incomplete
  | .malformed => .malformed
  | .done fields rest =>
    match fieldValue fields "Content-Length" with
    | some text =>
      match readDecimal text with
      | none => .malformed
      | some n =>
        if rest.length < n then .incomplete
        else
          match expect (delimiter boundary) (rest.drop n) with
          | .done _ rest' => .done ⟨fields, rest.take n⟩ rest'
          | .incomplete => .incomplete
          | .malformed => .malformed
    | none =>
      match findPat (delimiter boundary) rest with
      | some (body, rest) => .done ⟨fields, body⟩ rest
      | none => .incomplete

/-- The complete parts, and what is left. -/
def parseParts (boundary : List UInt8) : Nat → List UInt8 → Option (List Part × List UInt8)
  | 0, _ => none
  | n + 1, t =>
    match parsePart boundary t with
    | .done part rest => (parseParts boundary n rest).map fun r => (part :: r.1, r.2)
    | .incomplete => some ([], t)
    | .malformed => none

/-- A multipart stream, as far as it has come. -/
structure Multipart where
  statusLine : List UInt8
  fields : List Field
  boundary : List UInt8
  parts : List Part
  tail : List UInt8

def parseMultipart (t : List UInt8) : Option Multipart :=
  match scanLine t with
  | none => none
  | some (statusLine, rest) =>
    if (ascii "HTTP/").isPrefixOf statusLine then
      match headerBlock rest with
      | .done fields rest =>
        match (fieldValue fields "Content-Type").bind boundaryParam with
        | none => none
        | some boundary =>
          match expect (dashLine boundary) rest with
          | .done _ rest => (parseParts boundary (rest.length + 1) rest).map fun r =>
              ⟨statusLine, fields, boundary, r.1, r.2⟩
          | _ => none
      | _ => none
    else none

/-! ## 3. What is printed is read -/

section

variable {rest body boundary pat : List UInt8} {fs : List Field} {f : Field}

theorem scanLine_append {line : List UInt8} (h : (10 : UInt8) ∉ line) (rest : List UInt8) :
    scanLine (line ++ 13 :: 10 :: rest) = some (line, rest) := by
  induction line with
  | nil => rw [List.nil_append, scanLine]
  | cons c line ih =>
    have hline : (10 : UInt8) ∉ line := fun hm => h (List.mem_cons_of_mem c hm)
    rw [List.cons_append, scanLine, ih hline]
    · rfl
    · rintro rest' rfl hnext
      cases line with
      | nil => exact absurd (List.cons.inj hnext).1 (by decide)
      | cons d line => exact hline ((List.cons.inj hnext).1 ▸ List.mem_cons_self)

/-- A field that can be printed on one line. -/
structure Field.Ok (f : Field) : Prop where
  name_ne : f.name ≠ []
  noColon : (58 : UInt8) ∉ f.name
  name_noLf : (10 : UInt8) ∉ f.name
  value_noLf : (10 : UInt8) ∉ f.value

/-- `name: value`. -/
def Field.line (f : Field) : List UInt8 := f.name ++ 58 :: 32 :: f.value

/-- The field as it is read. -/
def Field.trim (f : Field) : Field := ⟨f.name, f.value.dropWhile isOws⟩

def printFields (fs : List Field) : List UInt8 := (fs.map fun f => f.line ++ crlf).flatten

theorem printFields_nil : printFields [] = [] := rfl

theorem printFields_cons (f : Field) (fs : List Field) :
    printFields (f :: fs) = f.name ++ 58 :: 32 :: (f.value ++ (crlf ++ printFields fs)) := by
  rw [printFields, List.map_cons, List.flatten_cons, Field.line]
  simp only [List.append_assoc, List.cons_append]
  rfl

theorem printFields_append (fs gs : List Field) :
    printFields (fs ++ gs) = printFields fs ++ printFields gs := by
  rw [printFields, List.map_append, List.flatten_append]
  rfl

theorem Field.Ok.noLf (h : f.Ok) : (10 : UInt8) ∉ f.line := by
  intro hm
  rcases List.mem_append.mp hm with hname | hm
  · exact h.name_noLf hname
  · rcases List.mem_cons.mp hm with hcolon | hm
    · exact absurd hcolon (by decide)
    · rcases List.mem_cons.mp hm with hspace | hvalue
      · exact absurd hspace (by decide)
      · exact h.value_noLf hvalue

theorem parseField_line (h : f.Ok) : parseField f.line = some f.trim := by
  have hname : ∀ c ∈ f.name, (c != 58) = true := by
    intro c hc
    rw [bne_iff_ne]
    rintro rfl
    exact h.noColon hc
  have htake : f.line.takeWhile (· != 58) = f.name := by
    rw [Field.line, List.takeWhile_append_of_pos hname, List.takeWhile_cons_of_neg (by decide),
      List.append_nil]
  have hdrop : f.line.dropWhile (· != 58) = 58 :: 32 :: f.value := by
    rw [Field.line, List.dropWhile_append_of_pos hname, List.dropWhile_cons_of_neg (by decide)]
  unfold parseField
  simp only [htake, hdrop, if_neg h.name_ne]
  rfl

/-- A block that is printed is read. -/
theorem parseFields_print (rest : List UInt8) :
    ∀ {fs : List Field}, (∀ f ∈ fs, f.Ok) → ∀ {n : Nat}, fs.length < n →
      parseFields n (printFields fs ++ (crlf ++ rest)) = .done (fs.map Field.trim) rest
  | [], _, 0, h => absurd h (Nat.not_lt_zero _)
  | [], _, _ + 1, _ => rfl
  | _ :: _, _, 0, h => absurd h (Nat.not_lt_zero _)
  | f :: fs, hok, n + 1, hn => by
    obtain ⟨hf, hfs⟩ := List.forall_mem_cons.mp hok
    have htext : printFields (f :: fs) ++ (crlf ++ rest)
        = f.line ++ 13 :: 10 :: (printFields fs ++ (crlf ++ rest)) := by
      simp only [printFields_cons, Field.line, List.append_assoc, List.cons_append]
      rfl
    obtain ⟨c, line, hline⟩ := List.exists_cons_of_ne_nil
      (show f.line ≠ [] from List.append_ne_nil_of_left_ne_nil hf.name_ne _)
    have hparse := parseField_line hf
    have hrest := parseFields_print rest hfs (Nat.lt_of_succ_lt_succ hn)
    rw [htext, parseFields, scanLine_append hf.noLf, hline]
    rw [hline] at hparse
    simp only [hparse, hrest, List.map_cons]

theorem length_le_printFields : ∀ fs : List Field, fs.length ≤ (printFields fs).length
  | [] => Nat.le_refl 0
  | f :: fs => by
    have ih := length_le_printFields fs
    rw [printFields_cons]
    simp only [List.length_append, List.length_cons]
    omega

theorem headerBlock_print (hok : ∀ f ∈ fs, f.Ok) (rest : List UInt8) :
    headerBlock (printFields fs ++ (crlf ++ rest)) = .done (fs.map Field.trim) rest := by
  refine parseFields_print rest hok ?_
  have hle := length_le_printFields fs
  rw [List.length_append]
  omega

/-- Reading a block changes no name. -/
theorem fieldValue_trim (fs : List Field) (name : String) :
    fieldValue (fs.map Field.trim) name = (fieldValue fs name).map (List.dropWhile isOws) := by
  unfold fieldValue
  rw [List.find?_map, Option.map_map, Option.map_map]
  rfl

/-- A field under a literal name. -/
def Field.named (name : String) (value : List UInt8) : Field := ⟨ascii name, value⟩

/-- A text that can name a field. -/
def isFieldName (t : List UInt8) : Bool := t != [] && t.all fun c => c != 58 && c != 10

theorem Field.Ok.named {name : String} (hname : isFieldName (ascii name) = true)
    {value : List UInt8} (hvalue : (10 : UInt8) ∉ value) : (Field.named name value).Ok := by
  rw [isFieldName, Bool.and_eq_true, bne_iff_ne, List.all_eq_true] at hname
  obtain ⟨hne, hall⟩ := hname
  exact ⟨hne, fun hcolon => absurd (hall 58 hcolon) (by decide),
    fun hlf => absurd (hall 10 hlf) (by decide), hvalue⟩

theorem fieldValue_nil (name : String) : fieldValue [] name = none := rfl

theorem fieldValue_named_same (name : String) (value : List UInt8) (fs : List Field) :
    fieldValue (.named name value :: fs) name = some value := by
  have hsame : asciiCaseEq (Field.named name value).name (ascii name) = true := BEq.rfl
  unfold fieldValue
  rw [List.find?_cons, hsame]
  rfl

theorem fieldValue_named_other {name name' : String}
    (h : asciiCaseEq (ascii name) (ascii name') = false) (value : List UInt8) (fs : List Field) :
    fieldValue (.named name value :: fs) name' = fieldValue fs name' := by
  have hother : asciiCaseEq (Field.named name value).name (ascii name') = false := h
  unfold fieldValue
  rw [List.find?_cons, hother]

theorem fieldValue_append (fs gs : List Field) (name : String) :
    fieldValue (fs ++ gs) name = (fieldValue fs name).or (fieldValue gs name) := by
  rw [fieldValue, List.find?_append, Option.map_or]
  rfl

/-! ## 4. Delimiters -/

theorem findPat_append (hpat : pat ≠ [])
    (hfirst : ∀ i < body.length, ¬ pat <+: (body ++ (pat ++ rest)).drop i) :
    findPat pat (body ++ (pat ++ rest)) = some (body, rest) := by
  induction body with
  | nil =>
    obtain ⟨c, p, rfl⟩ := List.exists_cons_of_ne_nil hpat
    rw [List.nil_append, List.cons_append, findPat, if_pos, ← List.cons_append, List.drop_left]
    rw [List.isPrefixOf_iff_prefix, ← List.cons_append]
    exact List.prefix_append _ _
  | cons c body ih =>
    have hhere : ¬ pat.isPrefixOf (c :: (body ++ (pat ++ rest))) = true := by
      rw [List.isPrefixOf_iff_prefix]
      exact hfirst 0 (Nat.zero_lt_succ _)
    have hlater := ih fun i hi => hfirst (i + 1) (Nat.succ_lt_succ hi)
    rw [List.cons_append, findPat, if_neg hhere, hlater]
    rfl

/-- Behind its first byte and up to the end of the boundary a delimiter has no carriage return. -/
theorem no_carriageReturn (hcr : (13 : UInt8) ∉ boundary) {k : Nat} (hpos : 0 < k)
    (hk : k < 4 + boundary.length) : (delimiter boundary)[k]? ≠ some 13 := by
  intro h
  match k, hpos with
  | 1, _ => exact absurd (Option.some.inj h) (by decide)
  | 2, _ => exact absurd (Option.some.inj h) (by decide)
  | 3, _ => exact absurd (Option.some.inj h) (by decide)
  | k + 4, _ =>
    have hin : (boundary ++ crlf)[k]? = some 13 := h
    rw [List.getElem?_append_left (by omega)] at hin
    exact hcr (List.mem_of_getElem? hin)

/-- No delimiter begins inside of a body without the boundary, not even one that ends behind it:
there is one carriage return at its beginning, and no other before the boundary is over. -/
theorem not_delimiter_inside (hcr : (13 : UInt8) ∉ boundary) (hbody : ¬ boundary <:+: body)
    (rest : List UInt8) :
    ∀ i < body.length, ¬ delimiter boundary <+: (body ++ (delimiter boundary ++ rest)).drop i := by
  intro i hi hpre
  have hsplit : delimiter boundary = [13, 10, 45, 45] ++ boundary ++ crlf := rfl
  rw [List.drop_append_of_le_length (Nat.le_of_lt hi)] at hpre
  have hback : (body.drop i).length = body.length - i := List.length_drop
  by_cases hlong : 4 + boundary.length ≤ body.length - i
  · -- the boundary of the early one lies in the body
    have hinside : [13, 10, 45, 45] ++ boundary <+: body.drop i := by
      refine List.prefix_of_prefix_length_le (List.IsPrefix.trans ?_ hpre)
        (List.prefix_append _ _) ?_
      · rw [hsplit]
        exact List.prefix_append _ _
      · rw [List.length_append, hback]
        exact hlong
    obtain ⟨more, hmore⟩ := hinside
    refine hbody (List.IsInfix.trans ⟨[13, 10, 45, 45], more, hmore⟩ ?_)
    exact (List.drop_suffix i body).isInfix
  · -- the real one's carriage return stands in the early one
    have hget : (delimiter boundary)[body.length - i]? = some 13 := by
      have hlt : body.length - i < (delimiter boundary).length := by
        rw [hsplit, List.length_append, List.length_append]
        have : ([13, 10, 45, 45] : List UInt8).length = 4 := rfl
        omega
      obtain ⟨more, hmore⟩ := hpre
      have hsame : (delimiter boundary ++ more)[body.length - i]?
          = (delimiter boundary)[body.length - i]? := List.getElem?_append_left hlt
      rw [← hsame, hmore, List.getElem?_append_right (Nat.le_of_eq hback), hback, Nat.sub_self]
      rfl
    have hpos : 0 < body.length - i := Nat.sub_pos_of_lt hi
    exact no_carriageReturn hcr hpos (Nat.lt_of_not_le hlong) hget

end

/-! ## 5. Streams that are printed are read -/

def printPart (boundary : List UInt8) (p : Part) : List UInt8 :=
  printFields p.fields ++ (crlf ++ (p.body ++ delimiter boundary))

def printParts (boundary : List UInt8) (ps : List Part) : List UInt8 :=
  (ps.map (printPart boundary)).flatten

/-- A part whose end is found: by its length, or because the boundary is not in it. -/
structure Part.Ok (boundary : List UInt8) (p : Part) : Prop where
  fields_ok : ∀ f ∈ p.fields, f.Ok
  length_ok : ∀ v, fieldValue p.fields "Content-Length" = some v → v = decimal p.body.length
  noBoundary : fieldValue p.fields "Content-Length" = none → ¬ boundary <:+: p.body

/-- The part as it is read. -/
def Part.trim (p : Part) : Part := ⟨p.fields.map Field.trim, p.body⟩

section

variable {boundary : List UInt8}

theorem expect_append (pat rest : List UInt8) : expect pat (pat ++ rest) = .done () rest := by
  rw [expect, if_pos (List.isPrefixOf_iff_prefix.mpr (List.prefix_append pat rest)),
    List.drop_left]

/-- A number has no white space before it. -/
theorem dropWhile_decimal (n : Nat) : (decimal n).dropWhile isOws = decimal n := by
  cases hdecimal : decimal n with
  | nil => rfl
  | cons c t =>
    have hdigit : isDigit c = true := isDigit_decimal n c (hdecimal ▸ List.mem_cons_self)
    have hows : ∀ c : UInt8, isDigit c = true → ¬ isOws c = true := forall_byte (by decide +kernel)
    rw [List.dropWhile_cons_of_neg (hows c hdigit)]

theorem parsePart_print {p : Part} (hcr : (13 : UInt8) ∉ boundary) (h : p.Ok boundary)
    (rest : List UInt8) :
    parsePart boundary (printPart boundary p ++ rest) = .done p.trim rest := by
  have htext : printPart boundary p ++ rest
      = printFields p.fields ++ (crlf ++ (p.body ++ (delimiter boundary ++ rest))) := by
    simp only [printPart, List.append_assoc]
  rw [htext, parsePart, headerBlock_print h.fields_ok]
  dsimp only
  rw [fieldValue_trim]
  cases hlen : fieldValue p.fields "Content-Length" with
  | some v =>
    have hread : readDecimal (v.dropWhile isOws) = some p.body.length := by
      rw [h.length_ok v hlen, dropWhile_decimal, readDecimal_decimal]
    have henough : ¬ (p.body ++ (delimiter boundary ++ rest)).length < p.body.length := by
      rw [List.length_append]
      omega
    simp only [Option.map_some, hread, if_neg henough, List.drop_left, List.take_left,
      expect_append]
    rfl
  | none =>
    have hne : delimiter boundary ≠ [] := List.cons_ne_nil _ _
    have hinside := not_delimiter_inside hcr (h.noBoundary hlen) rest
    simp only [Option.map_none, findPat_append hne hinside]
    rfl

theorem parsePart_nil (boundary : List UInt8) : parsePart boundary [] = .incomplete := rfl

/-- The header of a part that has not come yet. -/
theorem parsePart_header {fs : List Field} (hok : ∀ f ∈ fs, f.Ok)
    (hlen : fieldValue fs "Content-Length" = none) (boundary : List UInt8) :
    parsePart boundary (printFields fs ++ crlf) = .incomplete := by
  have hblock := headerBlock_print hok []
  rw [List.append_nil] at hblock
  rw [parsePart, hblock]
  dsimp only
  rw [fieldValue_trim, hlen]
  rfl

theorem parseParts_print {tail : List UInt8} (hcr : (13 : UInt8) ∉ boundary)
    (htail : parsePart boundary tail = .incomplete) :
    ∀ {ps : List Part}, (∀ p ∈ ps, p.Ok boundary) → ∀ {n : Nat}, ps.length < n →
      parseParts boundary n (printParts boundary ps ++ tail) = some (ps.map Part.trim, tail)
  | [], _, 0, h => absurd h (Nat.not_lt_zero _)
  | _ :: _, _, 0, h => absurd h (Nat.not_lt_zero _)
  | [], _, n + 1, _ => by
    have htext : printParts boundary [] ++ tail = tail := rfl
    rw [htext, parseParts, htail]
    rfl
  | p :: ps, hok, n + 1, hn => by
    obtain ⟨hp, hps⟩ := List.forall_mem_cons.mp hok
    have htext : printParts boundary (p :: ps) ++ tail
        = printPart boundary p ++ (printParts boundary ps ++ tail) := by
      rw [printParts, List.map_cons, List.flatten_cons, List.append_assoc]
      rfl
    have hrest := parseParts_print hcr htail hps (Nat.lt_of_succ_lt_succ hn)
    rw [htext, parseParts, parsePart_print hcr hp]
    dsimp only
    rw [hrest]
    rfl

theorem length_le_printParts (boundary : List UInt8) :
    ∀ ps : List Part, ps.length ≤ (printParts boundary ps).length
  | [] => Nat.le_refl 0
  | p :: ps => by
    have ih := length_le_printParts boundary ps
    have hpart : 2 ≤ (printPart boundary p).length := by
      have hcrlf : crlf.length = 2 := rfl
      rw [printPart, List.length_append, List.length_append]
      omega
    rw [printParts] at ih
    rw [printParts, List.map_cons, List.flatten_cons, List.length_append, List.length_cons]
    omega

/-- A stream that is printed is read: its head, its complete parts, and what there is of the next
one. -/
theorem parseMultipart_print {statusLine tail : List UInt8} {fs : List Field} {ps : List Part}
    (hstatus : (10 : UInt8) ∉ statusLine) (hhttp : ascii "HTTP/" <+: statusLine)
    (hfs : ∀ f ∈ fs, f.Ok)
    (hboundary : ((fieldValue fs "Content-Type").map (List.dropWhile isOws)).bind boundaryParam
      = some boundary)
    (hcr : (13 : UInt8) ∉ boundary) (hps : ∀ p ∈ ps, p.Ok boundary)
    (htail : parsePart boundary tail = .incomplete) :
    parseMultipart (statusLine ++ (crlf ++ (printFields fs ++ (crlf ++ (dashLine boundary
      ++ (printParts boundary ps ++ tail))))))
      = some ⟨statusLine, fs.map Field.trim, boundary, ps.map Part.trim, tail⟩ := by
  have hline := scanLine_append hstatus
    (printFields fs ++ (crlf ++ (dashLine boundary ++ (printParts boundary ps ++ tail))))
  have hfuel : ps.length < (printParts boundary ps ++ tail).length + 1 := by
    have hle := length_le_printParts boundary ps
    rw [List.length_append]
    omega
  have hparts := parseParts_print hcr htail hps hfuel
  rw [← fieldValue_trim] at hboundary
  unfold parseMultipart
  rw [crlf, List.cons_append, List.cons_append, List.nil_append, ← crlf, hline]
  dsimp only
  rw [if_pos (List.isPrefixOf_iff_prefix.mpr hhttp), headerBlock_print hfs]
  dsimp only
  rw [hboundary]
  dsimp only
  rw [expect_append]
  dsimp only
  rw [hparts]
  rfl

end

end TinyPilotKvm
