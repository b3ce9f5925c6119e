import Alerting.Json.Scan

/-!
# Reading JSON values

Tokens are put together by an assembler that keeps the containers around the current place on a
stack, so values of any length are read without deep recursion. Containers that stand more than 127
deep are well-formed, but unreadable.
-/

namespace Alerting

namespace Json

/-- The members of an object, last first. A broken name is `none`. -/
abbrev Members := List (Option String × Json)

/-- A container that is being read; what it holds so far is kept last first. In an object the
value of the named member is being read. -/
inductive Frame where
  | array (items : List Json)
  | object (members : Members) (name : Option String)
deriving Repr

inductive Assembly where
  | atValue (around : List Frame)
  | atArrayStart (around : List Frame)
  | atObjectStart (around : List Frame)
  | atName (members : Members) (around : List Frame)
  | atColon (members : Members) (name : Option String) (around : List Frame)
  | complete (value : Json) (around : List Frame)
deriving Repr

namespace Assembly

def maxDepth : Nat := 127

def close (around : List Frame) (container : Json) : Assembly :=
  .complete (if around.length < maxDepth then container else .unreadable) around

def closeArray (around : List Frame) (items : List Json) : Assembly :=
  close around (.array items.reverse)

def closeObject (around : List Frame) (members : Members) : Assembly :=
  match members.reverse.mapM fun (name, value) => name.map (·, value) with
  | some members => close around (.object members)
  | none => .complete .unreadable around

def begin (around : List Frame) (token : Token) : Option Assembly :=
  match token with
  | .scalar value => some (.complete (.scalar value) around)
  | .vastNumber | .brokenString => some (.complete .unreadable around)
  | .arrayStart => some (.atArrayStart around)
  | .objectStart => some (.atObjectStart around)
  | _ => none

def name? (token : Token) : Option (Option String) :=
  match token with
  | .scalar (.string name) => some (some name)
  | .brokenString => some none
  | _ => none

def step (assembly : Assembly) (token : Token) : Option Assembly :=
  match assembly with
  | .atValue around => begin around token
  | .atArrayStart around =>
      if token = .arrayEnd then some (closeArray around [])
      else begin (.array [] :: around) token
  | .atObjectStart around =>
      if token = .objectEnd then some (closeObject around [])
      else (name? token).map fun name => .atColon [] name around
  | .atName members around => (name? token).map fun name => .atColon members name around
  | .atColon members name around =>
      if token = .colon then some (.atValue (.object members name :: around)) else none
  | .complete value around =>
      match around, token with
      | .array items :: around, .comma => some (.atValue (.array (value :: items) :: around))
      | .array items :: around, .arrayEnd => some (closeArray around (value :: items))
      | .object members name :: around, .comma => some (.atName ((name, value) :: members) around)
      | .object members name :: around, .objectEnd =>
          some (closeObject around ((name, value) :: members))
      | _, _ => none

def result? : Assembly → Option Json
  | .complete value [] => some value
  | _ => none

end Assembly

def ofTokens? (tokens : List Token) : Option Json :=
  (tokens.foldlM Assembly.step (.atValue [])).bind Assembly.result?

def parse? (text : String) : Option Json := (Scanner.scan? text.toList).bind ofTokens?

end Json

end Alerting
