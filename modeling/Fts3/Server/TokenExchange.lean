import Fts3.Common.Json

/-!
# The failure of a token exchange

What `TokenExchangeExecutor` makes of the response of a token provider. The JSON reader is a parameter: `none` where it
throws.
-/

namespace Fts3

/-! ## The values of a response -/

namespace Json

/-- `Json::Value::get` with a default. It throws for what is neither an object nor null. -/
def getOr (v : Json) (key : Text) (default : Json) : Option Json :=
  match v with
  | null => some default
  | object members => some ((members.get key).getD default)
  | _ => none

/-- It throws for arrays and objects. -/
def asString : Json → Option Text
  | null => some []
  | boolean true => some "true".toList
  | boolean false => some "false".toList
  | integer i => some (Text.printInt i)
  | real digits => some digits
  | string s => some s
  | _ => none

end Json

namespace Server

open Text

variable (readJson : Text → Option Json)

/-! ## The error -/

structure IAMExchangeError where
  message : Text
  davError : Option Text
  deriving DecidableEq

/-- The constructor: no newlines at the end, and blanks for the others. -/
def IAMExchangeError.create (message : Text) (davError : Option Text) : IAMExchangeError where
  message := ((message.reverse.dropWhile (· = '\n')).reverse).map fun c => if c = '\n' then ' ' else c
  davError := davError

/-- The C string of the message. -/
def IAMExchangeError.what (e : IAMExchangeError) : Text :=
  e.message.takeWhile (· ≠ '\x00')

def IAMExchangeError.davixError (e : IAMExchangeError) : Text :=
  e.davError.getD "Token exchange request failed (no additional info could be provided)".toList

/-! ## The message -/

/-- `none` where `substr` throws. -/
def accessTokenToString (accessToken : Text) : Option Text :=
  if accessToken = [] then some "null".toList
  else if accessToken.length < 5 then none
  else some (accessToken.take 5 ++ "...".toList ++ accessToken.drop (accessToken.length - 5))

def parseJson (msg key : Text) (strict : Bool) : Option Text := do
  let obj ← readJson msg
  let value ← obj.getOr key (.string [])
  let res ← value.asString
  if res = [] ∧ strict then none else some res

def clientIdText : Text :=
  "<FTS client ID>".toList

def errorLabel (type : Text) : Text :=
  "[".toList ++ type ++ "]: ".toList

def extractErrorDescription (accessToken clientId : Text) (e : IAMExchangeError) : Text :=
  let message : Option Text := do
    let type ← parseJson readJson e.what "error".toList true
    let description ← parseJson readJson e.what "error_description".toList true
    let short ← accessTokenToString accessToken
    let description := replaceFirst accessToken short description
    let description := replaceFirst clientId clientIdText description
    some (errorLabel type ++ description)
  message.getD e.davixError

/-! ## The secrets -/

/-- A token and a client id, neither of which occurs in the texts that replace them. -/
structure Secrets where
  accessToken : Text
  clientId : Text
  token_ne : accessToken ≠ []
  clientId_ne : clientId ≠ []
  token_text : ¬ accessToken <:+: clientIdText ∧
    ∀ short, accessTokenToString accessToken = some short → ¬ accessToken <:+: short
  clientId_text : ¬ clientId <:+: clientIdText ∧
    ∀ short, accessTokenToString accessToken = some short → ¬ clientId <:+: short

namespace Secrets

variable (secrets : Secrets) (short type description text : Text)

/-- Neither of them occurs. -/
def HiddenIn : Prop :=
  ¬ secrets.accessToken <:+: text ∧ ¬ secrets.clientId <:+: text

/-- What stands before and after the first token, with the short form between them. -/
def aroundToken : Text :=
  match description.dropInfix? secrets.accessToken with
  | none => description
  | some (before, after) => before ++ short ++ after

/-- What stands before and after the first client id of it. -/
def shownParts : List Text :=
  match (secrets.aroundToken short description).dropInfix? secrets.clientId with
  | none => [secrets.aroundToken short description]
  | some (before, after) => [before, after]

/-- What the message is put together from. -/
def messageParts : List Text :=
  errorLabel type :: (secrets.shownParts short description).intersperse clientIdText

/-- Neither secret occurs in the field `error`, nor in the parts of the description around the first token and the first
client id, nor where these parts meet. -/
structure Redacted : Prop where
  error : secrets.HiddenIn (errorLabel type)
  rest : ∀ part ∈ secrets.shownParts short description, secrets.HiddenIn part
  seams : ∀ before after, secrets.messageParts short type description = before ++ after →
    ¬ Across secrets.accessToken before.flatten after.flatten ∧ ¬ Across secrets.clientId before.flatten after.flatten

variable {short type description}

theorem messageParts_flatten : (secrets.messageParts short type description).flatten =
    errorLabel type ++ replaceFirst secrets.clientId clientIdText (replaceFirst secrets.accessToken short description) := by
  have hshort : replaceFirst secrets.accessToken short description = secrets.aroundToken short description := by
    rw [replaceFirst, aroundToken]
    cases description.dropInfix? secrets.accessToken <;> rfl
  rw [hshort]
  unfold messageParts shownParts
  generalize secrets.aroundToken short description = shortened
  rw [replaceFirst]
  cases shortened.dropInfix? secrets.clientId with
  | none => simp
  | some parts => simp [List.intersperse]

/-- A word that is not in the text for the client id. -/
theorem infix_messageParts_iff {word : Text} (hne : word ≠ []) (htext : ¬ word <:+: clientIdText) :
    ¬ word <:+: (secrets.messageParts short type description).flatten ↔
      (¬ word <:+: errorLabel type ∧ ∀ part ∈ secrets.shownParts short description, ¬ word <:+: part) ∧
        ∀ before after, secrets.messageParts short type description = before ++ after →
          ¬ Across word before.flatten after.flatten := by
  have hparts : (∃ part ∈ secrets.messageParts short type description, word <:+: part) ↔
      word <:+: errorLabel type ∨ ∃ part ∈ secrets.shownParts short description, word <:+: part := by
    unfold messageParts shownParts
    cases (secrets.aroundToken short description).dropInfix? secrets.clientId with
    | none => simp
    | some parts => simp [List.intersperse, htext]
  rw [infix_flatten_iff hne, hparts]
  push Not
  rfl

theorem hiddenIn_messageParts_iff :
    secrets.HiddenIn (secrets.messageParts short type description).flatten ↔
      secrets.Redacted short type description := by
  rw [HiddenIn, secrets.infix_messageParts_iff secrets.token_ne secrets.token_text.1,
    secrets.infix_messageParts_iff secrets.clientId_ne secrets.clientId_text.1]
  constructor
  · rintro ⟨⟨⟨herror, hrest⟩, hseams⟩, ⟨herror', hrest'⟩, hseams'⟩
    constructor
    · exact ⟨herror, herror'⟩
    · exact fun part hpart => ⟨hrest part hpart, hrest' part hpart⟩
    · exact fun before after hparts => ⟨hseams before after hparts, hseams' before after hparts⟩
  · intro h
    constructor
    · exact ⟨⟨h.error.1, fun part hpart => (h.rest part hpart).1⟩,
        fun before after hparts => (h.seams before after hparts).1⟩
    · exact ⟨⟨h.error.2, fun part hpart => (h.rest part hpart).2⟩,
        fun before after hparts => (h.seams before after hparts).2⟩

end Secrets

/-! ## The messages that hide the secrets -/

variable {readJson}

/-- Without both fields, or with a token that is too short to be shortened, the message is that of the HTTP library. -/
theorem error_description_hides_iff (secrets : Secrets) (e : IAMExchangeError) :
    secrets.HiddenIn (extractErrorDescription readJson secrets.accessToken secrets.clientId e) ↔
      match parseJson readJson e.what "error".toList true, parseJson readJson e.what "error_description".toList true,
        accessTokenToString secrets.accessToken with
      | some type, some description, some short => secrets.Redacted short type description
      | _, _, _ => secrets.HiddenIn e.davixError := by
  unfold extractErrorDescription
  cases parseJson readJson e.what "error".toList true with
  | none => rfl
  | some type =>
      cases parseJson readJson e.what "error_description".toList true with
      | none => rfl
      | some description =>
          cases accessTokenToString secrets.accessToken with
          | none => rfl
          | some short =>
              have hparts : secrets.HiddenIn (secrets.messageParts short type description).flatten ↔
                  secrets.Redacted short type description := secrets.hiddenIn_messageParts_iff
              rw [secrets.messageParts_flatten] at hparts
              exact hparts

/-! ## A token that is named twice -/

/-- The token occurs twice in the description. -/
def invalidToken : Text :=
  "\x7b\"error\":\"invalid_token\",\"error_description\":\"Token eyJhbGciOi.sig rejected: eyJhbGciOi.sig has expired\"\x7d".toList

/-- The two members of this response. -/
def readInvalidToken (text : Text) : Option Json :=
  if text = invalidToken then
    some (.object (.cons "error".toList (.string "invalid_token".toList)
      (.cons "error_description".toList (.string "Token eyJhbGciOi.sig rejected: eyJhbGciOi.sig has expired".toList) .nil)))
  else none

def twiceNamed : Secrets where
  accessToken := "eyJhbGciOi.sig".toList
  clientId := "fts-client".toList
  token_ne := by decide
  clientId_ne := by decide
  token_text := by
    constructor
    · decide
    · rintro short ⟨rfl⟩
      decide
  clientId_text := by
    constructor
    · decide
    · rintro short ⟨rfl⟩
      decide

theorem extractErrorDescription_twiceNamed :
    extractErrorDescription readInvalidToken twiceNamed.accessToken twiceNamed.clientId (.create invalidToken none) =
        "[invalid_token]: Token eyJhb...i.sig rejected: eyJhbGciOi.sig has expired".toList ∧
      ¬ twiceNamed.HiddenIn
        (extractErrorDescription readInvalidToken twiceNamed.accessToken twiceNamed.clientId (.create invalidToken none)) := by
  have hmessage :
      extractErrorDescription readInvalidToken twiceNamed.accessToken twiceNamed.clientId (.create invalidToken none) =
        "[invalid_token]: Token eyJhb...i.sig rejected: eyJhbGciOi.sig has expired".toList := by
    decide
  constructor
  · exact hmessage
  · rw [hmessage]
    rintro ⟨htoken, -⟩
    exact htoken (by decide)

end Server

end Fts3
