import Mathlib.Data.List.Infix
import Mathlib.Data.List.DropRight
import BeamSdk.Library.Pattern
import BeamSdk.Library.Uri

/-! What the logger makes of a message and its context before its sink gets them. -/

namespace Beam.Web.Logger

def sensitiveKeyPattern : Pattern := .anyOf [
  .literal "token".toList,
  .literal "secret".toList,
  .literal "password".toList,
  .seq (.literal "api".toList)
    (.seq (.optional (.one fun c => c == '-' || c == '_')) (.literal "key".toList)),
  .literal "authorization".toList,
  .literal "credential".toList,
  .literal "signature".toList,
  .seq .boundary (.seq (.literal "sig".toList) .boundary)]

def sensitiveKey (key : List Char) : Bool := sensitiveKeyPattern.test (key.map Char.toLower)

def redacted : List Char := "[redacted]".toList

def heads : List (List Char) :=
  ["bwt1".toList, "btrstd1".toList, "bm_live".toList, "bm_pub".toList, "b1m".toList, "bag".toList,
    "agt".toList]

def body (c : Char) : Bool := c.isAlphanum || c == '.' || c == '_' || c == '-'

def sensitiveValuePattern : Pattern :=
  .seq .boundary (.seq (.anyOf (heads.map .literal))
    (.seq (.optional (.one (· == '_'))) (.many body 8)))

def redactString (value : List Char) : List Char :=
  sensitiveValuePattern.replace (fun found => found.take 6 ++ '…' :: redacted) value

/-- A URL that was read, apart from its query. -/
structure Address where
  beforeQuery : List Char
  fragment : Option (List Char)

/-- `parse` is what `URL` makes of a text whose query is taken out, `none` where it throws; `decode`
is what `URLSearchParams` makes of the text of a name or a value. -/
structure Urls where
  parse : List Char → Option Address
  decode : List Char → List Char

abbrev Params := List (List Char × List Char)

def front (text : List Char) : List Char := text.takeWhile (· ≠ '#')

def hash (text : List Char) : List Char := text.dropWhile (· ≠ '#')

def left (text : List Char) : List Char := (front text).takeWhile (· ≠ '?')

def search (text : List Char) : List Char := (front text).dropWhile (· ≠ '?')

def segments (text : List Char) : List (List Char) :=
  match search text with
  | [] => []
  | _ :: query => query.splitOn '&'

def withoutQuery (text : List Char) : List Char := left text ++ (search text).take 1 ++ hash text

-- The parser of URLs drops tabs and line ends, and what is no more than a space at the end of a
-- URL.
def plain (ends : Bool) (segment : List Char) : List Char :=
  (if ends then segment.rdropWhile (· ≤ ' ') else segment).filter fun c =>
    c ≠ '\t' && c ≠ '\n' && c ≠ '\r'

def plains (ends : Bool) : List (List Char) → List (List Char)
  | [] => []
  | [segment] => [plain ends segment]
  | segment :: segments => plain false segment :: plains ends segments

def nameOf (segment : List Char) : List Char := segment.takeWhile (· ≠ '=')

def valueOf (segment : List Char) : List Char := (segment.dropWhile (· ≠ '=')).drop 1

namespace Urls
variable (u : Urls)

def param (segment : List Char) : Option (List Char × List Char) :=
  if segment = [] then none else some (u.decode (nameOf segment), u.decode (valueOf segment))

def searchParams (text : List Char) : Params :=
  (plains (hash text).isEmpty (segments text)).filterMap u.param

end Urls

def kept (n : ℕ) : Bool :=
  (48 ≤ n && n ≤ 57) || (65 ≤ n && n ≤ 90) || (97 ≤ n && n ≤ 122) ||
    n == 42 || n == 45 || n == 46 || n == 95

def encode (text : List Char) : List Char :=
  (Uri.octets text).flatMap fun n => if n = 32 then ['+'] else Uri.encodeOctet kept n

def query (params : Params) : List Char :=
  ['&'].intercalate (params.map fun param => encode param.1 ++ '=' :: encode param.2)

def Address.toString (a : Address) (params : Params) : List Char :=
  a.beforeQuery ++ '?' :: (query params ++ a.fragment.elim [] ('#' :: ·))

def setParam (name value : List Char) : Params → Params
  | [] => [(name, value)]
  | param :: params =>
    if param.1 = name then (name, value) :: params.filter (·.1 ≠ name)
      else param :: setParam name value params

def hidden (params : Params) : Params :=
  (params.map Prod.fst).foldl (fun params key =>
    if sensitiveKey key then setParam key redacted params else params) params

def redactUrl (u : Urls) (value : List Char) : List Char :=
  match u.parse (withoutQuery value) with
  | none => redactString value
  | some address =>
    let params := u.searchParams value
    if params.any fun param => sensitiveKey param.1 then address.toString (hidden params)
    else redactString value

/-- `other` is what is no string and no object, a function included. -/
inductive Value (π : Type)
  | undefined
  | string (text : List Char)
  | other (x : π)
  | object (r : ℕ)

inductive Object (π : Type)
  | array (items : List (Value π))
  | error (name message : List Char)
  | record (entries : List (List Char × Value π))

inductive Shown (π : Type)
  | undefined
  | string (text : List Char)
  | other (x : π)
  | array (items : List (Shown π))
  | record (entries : List (List Char × Shown π))

def through {α γ : Type} (f : α → List ℕ → γ × List ℕ) : List α → List ℕ → List γ × List ℕ
  | [], seen => ([], seen)
  | x :: xs, seen =>
    let (y, seen) := f x seen
    let (ys, seen) := through f xs seen
    (y :: ys, seen)

variable {π : Type}

def redactText (u : Urls) (text : List Char) : List Char :=
  if "://".toList <:+: text then redactUrl u text else redactString text

def redact (u : Urls) (heap : ℕ → Object π) : ℕ → Value π → List ℕ → Shown π × List ℕ
  | 0, _, seen => (.string "[truncated]".toList, seen)
  | _ + 1, .undefined, seen => (.undefined, seen)
  | _ + 1, .string text, seen => (.string (redactText u text), seen)
  | _ + 1, .other x, seen => (.other x, seen)
  | depth + 1, .object r, seen =>
    if r ∈ seen then (.string "[circular]".toList, seen)
    else
      match heap r with
      | .array items =>
        let (shown, seen) := through (redact u heap depth) (items.take 50) (r :: seen)
        (.array shown, seen)
      | .error name message =>
        (.record [("name".toList, .string name),
          ("message".toList, .string (redactString message))], r :: seen)
      | .record entries =>
        let (shown, seen) := through (fun (key, item) seen =>
          if sensitiveKey key then ((key, .string redacted), seen)
          else
            let (shown, seen) := redact u heap depth item seen
            ((key, shown), seen)) entries (r :: seen)
        (.record shown, seen)

inductive LogLevel
  | silent
  | error
  | warn
  | info
  | debug

def LogLevel.order : LogLevel → ℕ
  | .silent => 0
  | .error => 1
  | .warn => 2
  | .info => 3
  | .debug => 4

structure BeamLogger where
  level : LogLevel
  scope : List Char

namespace BeamLogger

def log (u : Urls) (l : BeamLogger) (heap : ℕ → Object π) (level : LogLevel) (message : List Char)
    (context : Value π) :
    Option (LogLevel × List Char × Shown π) :=
  if l.level.order < level.order then none
  else
    let prepared := match context with
      | .undefined => .undefined
      | context => (redact u heap 7 context []).1
    some (level, '[' :: l.scope ++ "] ".toList ++ message, prepared)

end BeamLogger
end Beam.Web.Logger
