/- module: JitaCart/Domain/Multibuy
   source: backend/crates/domain/src/multibuy.rs
   digest: The MultiBuy paste parser. -/

import JitaCart.Base.Grouping
import JitaCart.Base.Strings

set_option autoImplicit false
set_option relaxedAutoImplicit false

namespace JitaCart.Domain.Multibuy

open Base.Strings Base.Grouping Base.Numeric

structure ParsedLine where
  lineNos : List Nat
  name : Text
  qty : Int
  deriving DecidableEq

structure LineError where
  lineNo : Nat
  raw : Text
  reason : String
  deriving DecidableEq

structure ParsedMultibuy where
  lines : List ParsedLine
  errors : List LineError
  deriving DecidableEq

def nbsp : Char := '\u00a0'

def u32Max : Nat := 4294967295

def maxLineNosPerKey : Nat := 1024

/-- `i64::saturating_add` of positive numbers. -/
def saturatingAdd (a b : Int) : Int := min (a + b) i64Max

def parseQty (s : Text) : Option Int :=
  (parseI64 (removeChar ',' s)).filter fun q => decide (0 < q)

def isNumericToken (s : Text) : Bool :=
  let cleaned := removeChar ',' s
  decide (cleaned ≠ []) && isFloat cleaned

def badQty (s : Text) : String :=
  "quantity must be a positive integer (got '" ++ String.ofList s ++ "')"

def parseTabLine (line : Text) : Except String (Text × Int) :=
  match (line.splitOn '\t').map trim with
  | name :: col :: _ =>
    if name = [] then .error "missing item name"
    else
      match parseQty col with
      | some qty => .ok (name, qty)
      | none => .error (badQty col)
  | _ => .error "tab line needs at least name and qty"

/-- The start of the run of trailing numeric tokens among the first `n`. -/
def numericStart (tokens : List Text) : Nat → Nat
  | 0 => 0
  | n + 1 =>
    if (tokens[n]?).any isNumericToken then numericStart tokens n else n + 1

def parseWhitespaceLine (line : Text) : Except String (Text × Int) :=
  let tokens := splitWhitespace line
  if tokens.length < 2 then .error "need at least an item name and a quantity"
  else
    let start := numericStart tokens tokens.length
    if start = tokens.length then .error "no trailing quantity column found"
    else if start = 0 then .error "missing item name"
    else
      let qtyTok := tokens.getD start []
      match parseQty qtyTok with
      | none => .error (badQty qtyTok)
      | some qty =>
        let name := join ' ' (tokens.take start)
        if name = [] then .error "missing item name" else .ok (name, qty)

/-- Hard spaces count as spaces, and white space at the ends does not count. -/
def normalized (s : Text) : Text := trim (replaceChar nbsp ' ' s)

section Parser
variable (u : CaseTables)

def nameKey (name : Text) : Text := toLowercase u (normalized name)

/-- What one line of the input gives: nothing, an item, or an error. -/
def parseLine (raw : Text) : Option (Except String (Text × Int)) :=
  let trimmed := normalized raw
  if trimmed = [] then none
  else
    match if '\t' ∈ trimmed then parseTabLine trimmed else parseWhitespaceLine trimmed with
    | .ok (name, qty) =>
      if nameKey u name = [] then some (.error "missing item name") else some (.ok (name, qty))
    | .error reason => some (.error reason)

structure State where
  groups : Groups Text ParsedLine
  errors : List LineError

structure Entry where
  lineNo : Nat
  name : Text
  qty : Int
  deriving DecidableEq

def Entry.start (e : Entry) : ParsedLine := ⟨[e.lineNo], e.name, e.qty⟩

def ParsedLine.extend (line : ParsedLine) (e : Entry) : ParsedLine :=
  { line with
    qty := saturatingAdd line.qty e.qty
    lineNos :=
      if line.lineNos.length < maxLineNosPerKey then line.lineNos ++ [e.lineNo] else line.lineNos }

/-- `u32::try_from(idx).unwrap_or(u32::MAX).saturating_add(1)`. -/
def lineNumber (idx : Nat) : Nat := min (min idx u32Max + 1) u32Max

/-- The body of the loop over the numbered lines. -/
def step (st : State) (line : Text × Nat) : State :=
  match parseLine u line.1 with
  | none => st
  | some (.ok (name, qty)) =>
    { st with
      groups := st.groups.add Entry.start ParsedLine.extend (nameKey u name)
        ⟨lineNumber line.2, name, qty⟩ }
  | some (.error reason) =>
    { st with errors := st.errors ++ [⟨lineNumber line.2, line.1, reason⟩] }

def parseMultibuy (input : Text) : ParsedMultibuy :=
  let st := (lines input).zipIdx.foldl (step u) ⟨.empty, []⟩
  ⟨drain st.groups.order st.groups.agg, st.errors⟩

end Parser

end JitaCart.Domain.Multibuy
