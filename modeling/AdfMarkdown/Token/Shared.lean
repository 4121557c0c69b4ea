import AdfMarkdown.Store
import AdfMarkdown.Token.Canonical

/-! # Tokens with shared attributes

The attributes of a token are an object, which other tokens can hold as well. Here they are a place
in a store. A canonical token gets a copy of the attributes, and it is the copy that the destination
of a link is written to.
-/

namespace AdfMarkdown

/-- A token whose attributes are the object at a place. -/
inductive SharedToken where
  | mk (name : String) (raw : Option String) (style : Option String) (attrs : Option Nat)
      (children : Option (List SharedToken))
  deriving Repr, Inhabited

namespace SharedToken

section Values

variable (σ : Store Fields)

def readAttrs? : Option Nat → Option (Option Fields)
  | none => some none
  | some place => (σ.get? place).map some

mutual

def read? : SharedToken → Option Token
  | mk name raw style attrs children => do
    some (.mk name raw style (← readAttrs? σ attrs) (← readChildren? children))

def readChildren? : Option (List SharedToken) → Option (Option (List Token))
  | none => some none
  | some ts => (readList? ts).map some

def readList? : List SharedToken → Option (List Token)
  | [] => some []
  | t :: ts => do
    some ((← read? t) :: (← readList? ts))

end

end Values

section Attributes

def addAttrs (σ : Store Fields) : Option Fields → Store Fields × Option Nat
  | none => (σ, none)
  | some fields => (σ.add fields, some σ.next)

/-- A copy of the attributes, unless the object is missing or empty. -/
def copyAttrs (σ : Store Fields) (attrs : Option Nat) : Store Fields × Option Nat :=
  addAttrs σ ((attrs.bind σ.get?).filter fun fields => !fields.isEmpty)

def ownAttrs (σ : Store Fields) : Option Nat → Store Fields × Nat
  | some place => (σ, place)
  | none => (σ.add [], σ.next)

/-- The attributes of a canonical token: a copy of those of the token, with a destination written to
it on a link. -/
def canonicalAttrs [Url.Coding] (table : LinkDestination.Table) (name : String)
    (attrs : Option Nat) (sole : Option String) (σ : Store Fields) : Store Fields × Option Nat :=
  let (copied, new) := copyAttrs σ attrs
  if name = "link" then
    let target := Token.writtenTarget table ((attrs.bind σ.get?).getD []) sole
    let (owned, place) := ownAttrs copied new
    (owned.modify place (Fields.put "url" target), some place)
  else (copied, new)

def canonicalCode (raw style : Option String) (attrs : Option Nat) (σ : Store Fields) :
    Store Fields × SharedToken :=
  let (σ, language) := addAttrs σ (Token.infoLanguage (attrs.bind σ.get?))
  (σ, mk (Token.codeName style) (some (Token.codeText (raw.getD ""))) none language none)

end Attributes

def soleText? : Option (List SharedToken) → Option String
  | some [mk name raw _ _ _] => if name = "text" then some (raw.getD "") else none
  | _ => none

variable [Url.Coding] (table : LinkDestination.Table)

mutual

/-- The store after a token was made canonical, and the canonical token, if it is kept. -/
def canonical? : SharedToken → Store Fields → Store Fields × Option SharedToken
  | mk name raw style attrs children, σ =>
    if name = "blank_line" then (σ, none)
    else if name = "block_code" then
      let (τ, code) := canonicalCode raw style attrs σ
      (τ, some code)
    else
      let canonical := Token.canonicalName name
      if Token.isRawName canonical then
        (σ, some (mk canonical (some (raw.getD "")) none none none))
      else
        let (σ, attrs) := canonicalAttrs table canonical attrs (soleText? children) σ
        let (σ, children) := canonicalChildren children σ
        (σ, some (mk canonical none none attrs children))

def canonicalChildren : Option (List SharedToken) → Store Fields →
    Store Fields × Option (List SharedToken)
  | none, σ | some [], σ => (σ, none)
  | some (t :: ts), σ =>
    let (σ, ts) := canonicalList (t :: ts) σ
    (σ, some ts)

def canonicalList : List SharedToken → Store Fields → Store Fields × List SharedToken
  | [], σ => (σ, [])
  | t :: ts, σ =>
    let (σ, c) := canonical? t σ
    let (σ, cs) := canonicalList ts σ
    (σ, c.toList ++ cs)

end

end SharedToken

end AdfMarkdown
