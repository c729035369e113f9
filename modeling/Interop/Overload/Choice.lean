import Interop.Event
import Interop.Overload.Distance
import Interop.Registry.Members
import Interop.Script.Error

/-!
Overload choice: of the members of one name, the one whose parameters are closest to the arguments.
The first exact match wins outright; otherwise the lowest score wins, and of equal scores the
candidate listed first.
-/
namespace Interop.Overload

/-- Whether the number of arguments fits. -/
def isApplicable (member : Signature) (args : List Value) : Bool :=
  if member.variadic then member.params.length ≤ args.length + 1
  else args.length == member.params.length

/-- What measuring the candidates gives: an exact match, which ends it, or the candidates that can
be called with their scores, in the order listed. -/
inductive Measured (α : Type) where
  | exact (member : α)
  | scored (members : List (α × Nat))

/-- Measures the candidates in order. -/
def measure {α : Type} (r : Registry) (signature : α → Signature) (args : List Value) :
    List α → Memo → Measured α × Memo
  | [], memo => (.scored [], memo)
  | member :: rest, memo =>
    if isApplicable (signature member) args then
      match score r (signature member) args memo with
      | (none, memo) => measure r signature args rest memo
      | (some 0, memo) => (.exact member, memo)
      | (some found, memo) =>
        match measure r signature args rest memo with
        | (.exact other, memo) => (.exact other, memo)
        | (.scored members, memo) => (.scored ((member, found) :: members), memo)
    else measure r signature args rest memo

/-- Reports that two candidates are equally close. -/
def ambiguityEvent (distance : Nat) (first second : String) : Event where
  level := .warn
  message := "ambiguous overload, choosing the first candidate"
  details := [
    ("distance", .count distance),
    ("first", .text first),
    ("second", .text second)]

/-- The closest candidate. -/
def select {α : Type} (r : Registry) (signature : α → Signature) (name : String) (candidates : List α)
    (args : List Value) (memo : Memo) : Option α × List Event × Memo :=
  match measure r signature args candidates memo with
  | (.exact member, memo) => (some member, [], memo)
  | (.scored members, memo) =>
    match members.mergeSort (fun a b => a.2 ≤ b.2) with
    | [] => (none, [], memo)
    | [(member, _)] => (some member, [], memo)
    | (first, firstScore) :: (second, secondScore) :: _ =>
      let describe (member : α) := r.describeMember name (signature member)
      let events :=
        if firstScore = secondScore then [ambiguityEvent firstScore (describe first) (describe second)] else []
      (some first, events, memo)

/-- The types of the arguments, for messages. -/
def describeArguments (r : Registry) (args : List Value) : String :=
  Text.commaSeparated (args.map fun arg =>
    match Registry.runtimeType? arg with
    | some type => r.typeName type
    | none => "null")

/-- Chooses among candidates. Without arguments a candidate without parameters is taken at once, and
a sole candidate is taken whatever its parameters are. -/
def choose {α : Type} (r : Registry) (signature : α → Signature) (name : String) (candidates : List α)
    (args : List Value) (absent noMatch : BridgeError) (memo : Memo) : Except BridgeError α × List Event × Memo :=
  let immediate :=
    if args.isEmpty then candidates.find? (fun member => (signature member).params.isEmpty) else none
  match immediate with
  | some member => (.ok member, [], memo)
  | none =>
    match candidates with
    | [] => (.error absent, [], memo)
    | [only] => (.ok only, [], memo)
    | candidates =>
      match select r signature name candidates args memo with
      | (some member, events, memo) => (.ok member, events, memo)
      | (none, events, memo) => (.error noMatch, events, memo)

/-- The reachable methods of one name; a static call sees static methods only. -/
def methodCandidates (r : Registry) (type : TypeId) (name : String) (onInstance : Bool) : List Method :=
  (r.methods type).filter (fun m => m.name == name && (onInstance || m.isStatic))

def chooseMethod (r : Registry) (type : TypeId) (name : String) (args : List Value) (onInstance : Bool)
    (memo : Memo) : Except BridgeError Method × List Event × Memo :=
  let typeName := r.typeName type
  let absent : BridgeError :=
    if r.hasRestrictedMethod type name then .accessFailure (.method name typeName)
    else .notFound (.method name typeName)
  let noMatch : BridgeError := .noMatch ("method " ++ typeName ++ "." ++ name) (describeArguments r args)
  choose r Method.signature name (methodCandidates r type name onInstance) args absent noMatch memo

def chooseConstructor (r : Registry) (type : TypeId) (args : List Value) (memo : Memo) :
    Except BridgeError Constructor × List Event × Memo :=
  let typeName := r.typeName type
  let absent : BridgeError :=
    if r.hasRestrictedConstructor type then .accessFailure (.constructors typeName)
    else .notFound (.constructor typeName)
  let noMatch : BridgeError := .noMatch ("constructor of " ++ typeName) (describeArguments r args)
  choose r Constructor.signature Registry.constructorName (r.constructors type) args absent noMatch memo

end Interop.Overload
