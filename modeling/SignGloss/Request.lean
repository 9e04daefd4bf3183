/-
  Requests and responses.

  * a `Token` is a sign that was recognized, with the time it took and the
    confidence of the recognizer; a `Request` asks for the text of a sequence of
    tokens in a locale;
  * `Request.check` finds the first token that ends before it starts or whose
    confidence is not between 0 and 1.  Interpretation itself takes any request;
  * a `Response` is the text with a confidence of its own.
-/
import SignGloss.Number.Layout

namespace SignGloss

/-- The confidence of a token that comes without one, and of the empty text. -/
def defaultConfidence : Single := .ofRatio false 7 10

/-- The locale of a request that names none. -/
def defaultLocale : String := "es-MX"

/-- A recognized sign.  Times are in milliseconds. -/
structure Token where
  sign : String
  start : Int64 := 0
  stop : Int64 := 0
  confidence : Single := defaultConfidence
deriving Repr, DecidableEq

/-- A sequence of tokens in order of time, and a locale. -/
structure Request where
  tokens : List Token := []
  locale : String := defaultLocale
deriving Repr, DecidableEq

/-- The request for signs without times, in a locale. -/
def Request.ofSigns (signs : List String) (locale : String) : Request :=
  ⟨signs.map fun s => { sign := s }, locale⟩

/-- What is wrong with a token, whose position counts from 0. -/
inductive RequestError where
  | endsBeforeStart (index : Nat) (sign : String) (start stop : Int64)
  | confidenceOutOfRange (index : Nat) (sign : String) (confidence : Single)
deriving Repr, DecidableEq

/-- The error as told to a user. -/
def RequestError.message : RequestError → String
  | endsBeforeStart i sign start stop =>
    "token " ++ toString i ++ " ('" ++ sign ++ "') ends at " ++ toString stop.toInt
      ++ " before it starts at " ++ toString start.toInt
  | confidenceOutOfRange i sign c =>
    "token " ++ toString i ++ " ('" ++ sign ++ "') has confidence "
      ++ String.ofList (Layout.plain.text c) ++ ", expected 0..=1"

/-- What is wrong with a token at a position, if anything. -/
def Token.error? (i : Nat) (t : Token) : Option RequestError :=
  if t.stop < t.start then some (.endsBeforeStart i t.sign t.start t.stop)
  else if t.confidence.inUnit then none
  else some (.confidenceOutOfRange i t.sign t.confidence)

/-- The first error of tokens whose positions start at `i`. -/
def firstError? (i : Nat) : List Token → Option RequestError
  | [] => none
  | t :: ts => (t.error? i).or (firstError? (i + 1) ts)

/-- The first error of a request. -/
def Request.check (r : Request) : Except RequestError Unit :=
  match firstError? 0 r.tokens with
  | some e => .error e
  | none => .ok ()

/-- A text for a request.  There are no alternatives so far. -/
structure Response where
  text : String
  alternatives : List String := []
  confidence : Single := defaultConfidence
deriving Repr, DecidableEq

end SignGloss
