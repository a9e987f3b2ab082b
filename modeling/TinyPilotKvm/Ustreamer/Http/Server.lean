/-
# The data of the HTTP server (`ustreamer/http/server.h`, `ustreamer/http/tools.c`)

What is configured, a request and the clients that wait for frames.  A list with its counter
(`US_LIST_APPEND_C`, `US_LIST_REMOVE_C` of `libs/list.h`) is one structure, which carries that the
counter is the length.

libevent's part is the environment's: the request as it has been read, the parameters of its query
and `evhttp_encode_uri`, of which it is known that it leaves unreserved characters and escapes
(`UriEncoded`).
-/
import TinyPilotKvm.Formats.Ascii
import TinyPilotKvm.Libs.Memory

namespace TinyPilotKvm

/-! ## 1. Requests -/

/-- `enum evhttp_cmd_type`. -/
inductive EvhttpCmd
  | get
  | post
  | head
  | put
  | delete
  | options
  | trace
  | connect
  | patch
  deriving DecidableEq

/-- A header or a parameter. -/
structure Header where
  name : CString
  value : CString

/-- `struct evhttp_request`; the output headers are those that have been added for the reply, and
`conn` says whether there is still a connection. -/
structure EvhttpRequest where
  command : EvhttpCmd
  uri : CString
  inputHeaders : List Header
  outputHeaders : List (List UInt8 × List UInt8)
  conn : Bool

/-- `evhttp_find_header`: the first one with the name (`evutil_ascii_strcasecmp`). -/
def evhttpFindHeader (headers : List Header) (key : List UInt8) : Option (List UInt8) :=
  (headers.find? fun h => asciiCaseEq h.name.bytes key).map fun h => h.value.bytes

/-- `us_evhttp_get_header`. -/
def usEvhttpGetHeader (request : EvhttpRequest) (key : List UInt8) : Option (List UInt8) :=
  evhttpFindHeader request.inputHeaders key

/-- `us_evkeyvalq_get_true`. -/
def usEvkeyvalqGetTrue (params : List Header) (key : List UInt8) : Bool :=
  match evhttpFindHeader params key with
  | some value =>
    value.head? == some 49 || asciiCaseEq value (ascii "true") || asciiCaseEq value (ascii "yes")
  | none => false

/-- `us_evkeyvalq_get_string`, over `evhttp_encode_uri`. -/
def usEvkeyvalqGetString (encodeUri : List UInt8 → List UInt8) (params : List Header)
    (key : List UInt8) : Option (List UInt8) :=
  (evhttpFindHeader params key).map encodeUri

/-! ## 2. Encoded texts -/

/-- Letters, digits and `-._~`. -/
def isUnreserved (c : UInt8) : Bool :=
  isDigit c || decide (65 ≤ c ∧ c ≤ 90) || decide (97 ≤ c ∧ c ≤ 122) || [45, 46, 95, 126].contains c

/-- A hexadecimal digit of an escape. -/
def isUriHex (c : UInt8) : Bool := isHexDigit c || decide (65 ≤ c ∧ c ≤ 70)

/-- Unreserved characters and `%XX` escapes. -/
inductive UriEncoded : List UInt8 → Prop
  | nil : UriEncoded []
  | unreserved {c : UInt8} {t : List UInt8} :
      isUnreserved c = true → UriEncoded t → UriEncoded (c :: t)
  | escape {a b : UInt8} {t : List UInt8} :
      isUriHex a = true → isUriHex b = true → UriEncoded t → UriEncoded (37 :: a :: b :: t)

/-- What is true of the characters that such a text is made of is true of all of it. -/
theorem UriEncoded.forall_mem {p : UInt8 → Prop} (hunreserved : ∀ c, isUnreserved c = true → p c)
    (hhex : ∀ c, isUriHex c = true → p c) (hpercent : p 37) {t : List UInt8} (h : UriEncoded t) :
    ∀ c ∈ t, p c := by
  induction h with
  | nil => exact fun c hc => absurd hc List.not_mem_nil
  | unreserved hc _ ih => exact List.forall_mem_cons.mpr ⟨hunreserved _ hc, ih⟩
  | escape ha hb _ ih =>
    exact List.forall_mem_cons.mpr ⟨hpercent,
      List.forall_mem_cons.mpr ⟨hhex _ ha, List.forall_mem_cons.mpr ⟨hhex _ hb, ih⟩⟩⟩

/-- Every byte but the unreserved ones is escaped, in upper case. -/
def percentEncode : List UInt8 → List UInt8
  | [] => []
  | c :: t =>
    if isUnreserved c then c :: percentEncode t
    else 37 :: upperHex (c / 16) :: upperHex (c % 16) :: percentEncode t
where
  upperHex (d : UInt8) : UInt8 := if d < 10 then 48 + d else 55 + d

theorem isUriHex_upperHex : ∀ c : UInt8, isUriHex (percentEncode.upperHex (c / 16)) = true ∧
    isUriHex (percentEncode.upperHex (c % 16)) = true :=
  forall_byte (by decide +kernel)

theorem uriEncoded_percentEncode : ∀ t : List UInt8, UriEncoded (percentEncode t)
  | [] => .nil
  | c :: t => by
    rw [percentEncode]
    split
    · rename_i hc
      exact .unreserved hc (uriEncoded_percentEncode t)
    · obtain ⟨hhigh, hlow⟩ := isUriHex_upperHex c
      exact .escape hhigh hlow (uriEncoded_percentEncode t)

/-! ## 3. The server and its clients -/

/-- `us_server_s`, as far as requests are answered with it. -/
structure UsServer where
  user : CString
  passwd : CString
  staticPath : CString
  allowOrigin : CString
  instanceId : CString
  dropSameFrames : Nat
  fakeWidth : Nat
  fakeHeight : Nat

/-- The empty C string. -/
def CString.empty : CString := ⟨[], List.not_mem_nil⟩

/-- `us_server_init`. -/
def usServerInit : UsServer := ⟨.empty, .empty, .empty, .empty, .empty, 0, 0, 0⟩

/-- `us_stream_client_s`, less what is only logged and its counter of frames. -/
structure UsStreamClient where
  request : EvhttpRequest
  key : Option (List UInt8)
  extraHeaders : Bool
  advanceHeaders : Bool
  dualFinalFrames : Bool
  zeroData : Bool
  id : Nat
  needInitial : Bool
  needFirstFrame : Bool
  updatedPrev : Bool

/-- A list with its counter. -/
structure CountedList (α : Type) where
  items : List α
  count : Nat
  count_eq : count = items.length

namespace CountedList

variable {α : Type}

def empty : CountedList α := ⟨[], 0, rfl⟩

/-- `US_LIST_APPEND_C`. -/
def append (l : CountedList α) (item : α) : CountedList α where
  items := l.items ++ [item]
  count := l.count + 1
  count_eq := by rw [List.length_append, l.count_eq, List.length_singleton]

/-- `US_LIST_REMOVE_C` of the `i`-th item.  `none`: there is none. -/
def remove (l : CountedList α) (i : Nat) : Option (CountedList α) :=
  if h : i < l.items.length then
    some ⟨l.items.eraseIdx i, l.count - 1, by rw [List.length_eraseIdx_of_lt h, l.count_eq]⟩
  else none

end CountedList

/-- `us_bool_to_string`. -/
def usBoolToString (flag : Bool) : List UInt8 := if flag then ascii "true" else ascii "false"

end TinyPilotKvm
