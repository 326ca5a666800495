/-!
Dictionaries: values by text, sorted by it.
-/

namespace Deposit

/-- Entries sorted by key, each key once. -/
abbrev Dictionary (α : Type) := List (String × α)

namespace Dictionary

variable {α : Type}

/-- Puts an entry in its place, instead of one with the same key. -/
def insert (key : String) (value : α) : Dictionary α → Dictionary α
  | [] => [(key, value)]
  | (k, v) :: rest =>
    if key < k then (key, value) :: (k, v) :: rest
    else if key = k then (key, value) :: rest
    else (k, v) :: insert key value rest

/-- The dictionary of entries; the last of several with one key counts. -/
def ofList (entries : List (String × α)) : Dictionary α :=
  entries.foldl (fun d (key, value) => insert key value d) []

end Dictionary

end Deposit
