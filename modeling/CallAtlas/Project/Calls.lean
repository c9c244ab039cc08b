import CallAtlas.CallSite
import CallAtlas.Project.Candidates
import CallAtlas.Project.Declarations

/-!
# The calls of a file

`callsOf` walks a syntax tree and records every call, located or not, with the enclosing definition
as its caller and its callee spelled out as far as the imports seen before it in the walk allow.
-/

namespace CallAtlas

open Source Text

/-- A call as it stands in the source. -/
structure RawCall where
  caller : String
  file : Path
  place : Place
  offset : Option Nat
  raw : String
  deriving Repr, DecidableEq

/-- A call with the symbols it may refer to, the best first. -/
structure Call extends RawCall where
  candidates : List String
  deriving Repr, DecidableEq

/-- The best symbol that a call may refer to. -/
def Call.callee? (c : Call) : Option String := c.candidates.head?

/-- What imported names stand for. -/
abbrev Aliases := Table String String

/-- The dotted form of a callee, with imported names replaced by what they stand for. -/
def spelledCallee? (aliases : Aliases) : Node → Option String
  | .name id _ => some ((aliases.get? id).getD id)
  | .member receiver id _ => (spelledCallee? aliases receiver).map (· ++ "." ++ id)
  | _ => none

/-- The calls found in a part of a tree, and the imports known after it. -/
structure CallScan where
  calls : List RawCall
  aliases : Aliases

mutual

/-- Records the calls of a tree whose enclosing definitions have the names `context`. -/
def scanCalls (file : Path) (index : LineIndex) (context : List String) (aliases : Aliases) :
    Node → CallScan
  | .name _ _ => ⟨[], aliases⟩
  | .member receiver _ _ => scanCalls file index context aliases receiver
  | .call callee arguments extent =>
    let own : RawCall :=
      { caller := ".".intercalate (moduleName file :: context)
        file := file
        place := extent.start
        offset := (locate? index callee).map Located.offset
        raw := (spelledCallee? aliases callee).getD unknownCallee }
    let inCallee := scanCalls file index context aliases callee
    let inArguments := scanCallsOfAll file index context inCallee.aliases arguments
    ⟨own :: inCallee.calls ++ inArguments.calls, inArguments.aliases⟩
  | .definition head parts _ => scanCallsOfAll file index (context ++ [head.name]) aliases parts
  | .imports bindings _ => ⟨[], bindings.foldl (fun t b => t.put b.bound b.target) aliases⟩
  | .other parts _ => scanCallsOfAll file index context aliases parts

/-- Records the calls of several trees. -/
def scanCallsOfAll (file : Path) (index : LineIndex) (context : List String) (aliases : Aliases) :
    List Node → CallScan
  | [] => ⟨[], aliases⟩
  | node :: rest =>
    let first := scanCalls file index context aliases node
    let others := scanCallsOfAll file index context first.aliases rest
    ⟨first.calls ++ others.calls, others.aliases⟩

end

/-- The calls of a file. -/
def rawCalls (file : Path) (index : LineIndex) (tree : Node) : List RawCall :=
  (scanCalls file index [] .empty tree).calls

/-- A call with its candidates in an index of symbols. -/
def RawCall.resolve (symbols : SymbolIndex) (call : RawCall) : Call :=
  { call with candidates :=
    (CallAtlas.candidates symbols (moduleName call.file) call.raw).map Symbol.id }

/-- The calls of a file with their candidates. -/
def callsOf (symbols : SymbolIndex) (file : Path) (index : LineIndex) (tree : Node) : List Call :=
  (rawCalls file index tree).map (RawCall.resolve symbols)

end CallAtlas
