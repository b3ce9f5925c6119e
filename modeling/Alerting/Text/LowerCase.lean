import Alerting.Text.CaseTable

/-!
# Lower case

Texts are compared without regard to case by comparing their lower-case forms. Characters are
lowered one by one, except that a capital sigma at the end of a word becomes a final sigma and that
a capital I with a dot keeps its dot as a combining mark.
-/

namespace Alerting

namespace LowerCase

def simple (char : Char) : Char :=
  match CaseTable.lower.find? (·.contains char.toNat) with
  | some run => Char.ofNat (char.toNat + run.shift).toNat
  | none => char

def isCased (char : Char) : Bool := CaseTable.inRanges CaseTable.cased char.toNat

def isCaseIgnorable (char : Char) : Bool :=
  CaseTable.inRanges CaseTable.caseIgnorable char.toNat

def startsCased (text : List Char) : Bool :=
  match text.find? fun char => !isCaseIgnorable char with
  | some char => isCased char
  | none => false

def capitalSigma : Char := 'Σ'

/-- A capital sigma ends a word if a letter stands before it and none after it. -/
def sigma (before after : List Char) : Char :=
  if startsCased before && !startsCased after then 'ς' else 'σ'

def lowered (before : List Char) (char : Char) (after : List Char) : List Char :=
  if char = capitalSigma then [sigma before after]
  else if char = 'İ' then ['i', '\u0307']
  else if char.toNat < 0x80 then [char.toLower]
  else [simple char]

def lowerFrom (before : List Char) : List Char → List Char
  | [] => []
  | char :: rest => lowered before char rest ++ lowerFrom (char :: before) rest

end LowerCase

def lowerCase (text : String) : List Char := LowerCase.lowerFrom [] text.toList

def occursIn (needle : List Char) : List Char → Bool
  | [] => needle.isEmpty
  | char :: rest => needle.isPrefixOf (char :: rest) || occursIn needle rest

def sameUpToCase (left right : String) : Bool := lowerCase left == lowerCase right

def containsUpToCase (text part : String) : Bool := occursIn (lowerCase part) (lowerCase text)

end Alerting
