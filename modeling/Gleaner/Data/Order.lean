import Gleaner.Data.Value

/-!
# The order of keys

Numbers are ordered by what they count, texts and bytes by their characters, dates by the calendar. Keys
of different sorts have no order, so sorting a map can fail, and the failure names the two keys that
were compared. Which two depends on how the sort goes: it takes the run at the front, which either never
goes down or always does, and then puts each further entry in its place by halving.

Main definitions: `Value.less?`, `sortWith` and `Value.sortEntries`.
-/

namespace Gleaner

/-! ## Sorting with a test that can fail -/

/-- Take entries as long as each is below the one before it, or as long as none is. -/
def takeRun {α ε : Type} (less : α → α → Except ε Bool) (down : Bool) (previous : α) :
    List α → Except ε (List α × List α)
  | [] => .ok ([], [])
  | a :: rest => do
    if (← less a previous) = down then
      let (run, left) ← takeRun less down a rest
      return (a :: run, left)
    else return ([], a :: rest)

/-- Where an entry belongs in a sorted list, after all that are not above it, between two bounds. -/
def placeBetween {α ε : Type} (less : α → α → Except ε Bool) (sorted : List α) (a : α)
    (low high : Nat) : Except ε Nat :=
  if _h : low < high then
    let middle := low + (high - low) / 2
    match sorted[middle]? with
    | none => .ok low
    | some b => do
      if ← less a b then placeBetween less sorted a low middle
      else placeBetween less sorted a (middle + 1) high
  else .ok low
termination_by high - low

/-- Put entries into a sorted list one after the other. -/
def insertAll {α ε : Type} (less : α → α → Except ε Bool) (sorted : List α) :
    List α → Except ε (List α)
  | [] => .ok sorted
  | a :: rest => do
    let place ← placeBetween less sorted a 0 sorted.length
    insertAll less (sorted.take place ++ a :: sorted.drop place) rest

/-- Sort a list. -/
def sortWith {α ε : Type} (less : α → α → Except ε Bool) : List α → Except ε (List α)
  | [] => .ok []
  | [a] => .ok [a]
  | a :: b :: rest => do
    let down ← less b a
    let (run, left) ← takeRun less down b rest
    let front := a :: b :: run
    insertAll less (if down then front.reverse else front) left

/-! ## Keys -/

/-- What a number counts as: a ratio, an infinity, or nothing that can be counted. -/
inductive Amount where
  | ratio (num : Int) (den : Nat)
  | infinite (negative : Bool)
  | uncounted
deriving DecidableEq, Repr

/-- Whether an amount is below another. -/
def Amount.below : Amount → Amount → Bool
  | .ratio a b, .ratio c d => a * d < c * b
  | .ratio _ _, .infinite negative => !negative
  | .infinite negative, .ratio _ _ => negative
  | .infinite m, .infinite n => m && !n
  | _, _ => false

/-- What a floating point number counts as. -/
def Binary64.amount : Binary64 → Amount
  | .nan => .uncounted
  | .infinite negative => .infinite negative
  | x => match x.ratio? with
    | some (num, den) => .ratio num den
    | none => .uncounted

namespace Value

/-- What a number or a truth value counts as. -/
def amount? : Value → Option Amount
  | .bool b => some (.ratio (if b then 1 else 0) 1)
  | .int n => some (.ratio n 1)
  | .float x => some x.amount
  | _ => none

/-- Whether a key comes before another, if their sorts have an order. -/
def less? : Value → Value → Option Bool
  | .text s, .text t => some (decide (s < t))
  | .bytes b, .bytes c => some (decide (b.map UInt8.toNat < c.map UInt8.toNat))
  | .date d, .date e => some (decide ([d.year, d.month, d.day] < [e.year, e.month, e.day]))
  | a, b => do return (← a.amount?).below (← b.amount?)

/-- Two keys that have no order. -/
structure Incomparable where
  left : String
  right : String
deriving DecidableEq, Repr

/-- Compare the keys of two entries. -/
def lessEntry {α : Type} (a b : Value × α) : Except Incomparable Bool :=
  match less? a.1 b.1 with
  | some less => .ok less
  | none => .error ⟨a.1.fullTypeName, b.1.fullTypeName⟩

/-- Sort entries by their keys. -/
def sortEntries {α : Type} (entries : List (Value × α)) : Except Incomparable (List (Value × α)) :=
  sortWith lessEntry entries

end Value

end Gleaner
