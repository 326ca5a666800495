/-!
Splitting of lists at separators.
-/

namespace Deposit.Split

variable {α : Type} [BEq α]

/-- The pieces of a list between the separators, one more than there are
separators. -/
def pieces (separator : α) : List α → List (List α)
  | [] => [[]]
  | c :: rest =>
    if c == separator then [] :: pieces separator rest
    else
      match pieces separator rest with
      | [] => [[c]]
      | piece :: others => (c :: piece) :: others

/-- What stands before and behind the first separator. -/
def first? (separator : α) : List α → Option (List α × List α)
  | [] => none
  | c :: rest =>
    if c == separator then some ([], rest)
    else (first? separator rest).map fun (before, behind) => (c :: before, behind)

/-- The rest of a list behind `start`, if it begins so. -/
def behind? (start list : List α) : Option (List α) :=
  match start, list with
  | [], rest => some rest
  | _ :: _, [] => none
  | a :: start, b :: rest => if a == b then behind? start rest else none

end Deposit.Split
