import Mathlib.Data.List.Infix

/-!
# The stream redactor

`unica-redaction`: a text is pushed letter by letter through a state machine that recognises
the names of secrets while it already passes them on, and replaces the value behind such a
name. A name holds ASCII letters only, so that its bytes are its letters.
-/

namespace Unica.Redaction

abbrev Text := List Char

def toAsciiLowercase (text : Text) : Text := text.map Char.toLower

def eqIgnoreAsciiCase (a b : Text) : Bool := toAsciiLowercase a = toAsciiLowercase b

def exactSecretKeys : List Text := ["connection".toList, "pwd".toList]

def substringSecretKeys : List Text := ["password".toList, "token".toList, "secret".toList]

def maxRetainedKeyBytes : Nat := "connection".length

/-- `char::is_whitespace`: the letters with the Unicode property `White_Space`. -/
def isWhitespace (ch : Char) : Bool :=
  let n := ch.toNat
  (0x9 ≤ n && n ≤ 0xd) || n == 0x20 || n == 0x85 || n == 0xa0 || n == 0x1680 ||
    (0x2000 ≤ n && n ≤ 0x200a) || n == 0x2028 || n == 0x2029 || n == 0x202f || n == 0x205f ||
    n == 0x3000

def secretKeyChar (ch : Char) : Bool := ch.isAlphanum || ch == '_' || ch == '-'

inductive SecretValueKind where
  | connection | other
  deriving DecidableEq

def secretValueDelimiter (ch : Char) : SecretValueKind → Bool
  | .connection => ch == '\n' || ch == '\r'
  | .other => ch == ';' || ch == '&' || ch == ',' || ch == '\n' || ch == '\r' || ch == '\x7d'

inductive ExactKeyStatus where
  | possible | discarded
  deriving DecidableEq

inductive RedactionMarker where
  | pending | written
  deriving DecidableEq

inductive State where
  | text
  | candidate (pending : Text) (exactKey : ExactKeyStatus)
  | confirmedSecretKey
  | afterSecretKey (kind : SecretValueKind)
  | redactingSecretValue (marker : RedactionMarker) (kind : SecretValueKind)
  deriving DecidableEq

/-! ## Names -/

/-- `str::contains` -/
def contains (text part : Text) : Bool := part <:+: text

def isSecretKey (key : Text) : Bool :=
  exactSecretKeys.contains (toAsciiLowercase key) ||
    substringSecretKeys.any fun secretKey => contains (toAsciiLowercase key) secretKey

def exactKeyName : Text → Text
  | '-' :: '-' :: rest => rest
  | '-' :: rest => rest
  | key => key

def isPossibleExactSecretKey (key : Text) : Bool :=
  exactSecretKeys.any fun secretKey => (exactKeyName key).length ≤ secretKey.length &&
    eqIgnoreAsciiCase (secretKey.take (exactKeyName key).length) (exactKeyName key)

def isExactSecretKey (key : Text) : Bool :=
  exactSecretKeys.any fun secretKey => eqIgnoreAsciiCase secretKey (exactKeyName key)

def isConnectionKey (key : Text) : Bool := eqIgnoreAsciiCase (exactKeyName key) "connection".toList

def containsSubstringSecretKey (key : Text) : Bool :=
  substringSecretKeys.any fun secretKey => contains (toAsciiLowercase key) secretKey

def ExactKeyStatus.advance (key : Text) : ExactKeyStatus → ExactKeyStatus
  | .possible => if isPossibleExactSecretKey key then .possible else .discarded
  | .discarded => .discarded

/-- The length of a suffix some secret starts with, tried from the longest one down. -/
def retainedLength (pending : Text) : Nat → Nat
  | 0 => 0
  | length + 1 =>
      if length + 1 ≤ pending.length && substringSecretKeys.any fun secretKey =>
          length + 1 ≤ secretKey.length && eqIgnoreAsciiCase (secretKey.take (length + 1))
            (pending.drop (pending.length - (length + 1)))
      then length + 1
      else retainedLength pending length

/-- `retain_secret_key_suffix`: the suffix that stays and the rest that is passed on. -/
def retainSecretKeySuffix (pending : Text) : Text × Text :=
  let start := pending.length - retainedLength pending maxRetainedKeyBytes
  (pending.drop start, pending.take start)

/-! ## The state machine -/

/-- A call that appends to the output: the next state and what was appended. -/
abbrev Push := State × Text

def redacted : Text := "<redacted>".toList

namespace State

def advanceCandidate (pending : Text) (exactKey : ExactKeyStatus) : Push :=
  if containsSubstringSecretKey pending then (.confirmedSecretKey, pending)
  else match exactKey.advance pending with
    | .possible => (.candidate pending .possible, [])
    | .discarded =>
        let (kept, passed) := retainSecretKeySuffix pending
        (.candidate kept .discarded, passed)

def afterKey (ch : Char) (kind : SecretValueKind) : Push :=
  if ch == '=' || ch == ':' then (.redactingSecretValue .pending kind, [ch])
  else if isWhitespace ch then (.afterSecretKey kind, [ch])
  else if secretKeyChar ch then State.advanceCandidate [ch] .possible
  else (.text, [ch])

def afterKeyValue (ch : Char) (kind : SecretValueKind) : Push :=
  if isWhitespace ch then (.afterSecretKey kind, [ch])
  else if secretValueDelimiter ch kind then (.text, [ch])
  else (.redactingSecretValue .written kind, redacted)

def redactValue (ch : Char) (marker : RedactionMarker) (kind : SecretValueKind) : Push :=
  match marker with
  | .pending =>
      if isWhitespace ch then (.redactingSecretValue .pending kind, [ch])
      else if secretValueDelimiter ch kind then (.text, redacted ++ [ch])
      else (.redactingSecretValue .written kind, redacted)
  | .written =>
      if secretValueDelimiter ch kind then (.text, [ch])
      else (.redactingSecretValue .written kind, [])

def push (ch : Char) : State → Push
  | .text => if secretKeyChar ch then State.advanceCandidate [ch] .possible else (.text, [ch])
  | .candidate pending exactKey =>
      if secretKeyChar ch then State.advanceCandidate (pending ++ [ch]) exactKey
      else if exactKey = .possible && isExactSecretKey pending then
        let (state, output) := State.afterKey ch (if isConnectionKey pending then .connection else .other)
        (state, pending ++ output)
      else (.text, pending ++ [ch])
  | .confirmedSecretKey =>
      if secretKeyChar ch then (.confirmedSecretKey, [ch]) else State.afterKey ch .other
  | .afterSecretKey kind => State.afterKeyValue ch kind
  | .redactingSecretValue marker kind => State.redactValue ch marker kind

def finish : State → Text
  | .candidate pending _ => pending
  | .redactingSecretValue .pending _ => redacted
  | _ => []

/-- `StreamRedactor::push`, for one chunk. -/
def pushChunk (state : State) : Text → Push
  | [] => (state, [])
  | ch :: rest =>
      let (next, output) := state.push ch
      let (last, more) := next.pushChunk rest
      (last, output ++ more)

/-- What a redactor that starts in `state` writes for a text that comes in chunks, `finish`
included. -/
def stream (state : State) : List Text → Text
  | [] => state.finish
  | chunk :: rest =>
      let (next, output) := state.pushChunk chunk
      output ++ next.stream rest

end State

def redactor (text : Text) : Text := State.stream .text [text]

example : redactor "a token=x;b".toList = "a token=<redacted>;b".toList := by decide +kernel

end Unica.Redaction
