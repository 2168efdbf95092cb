/-!
# Named members

Members of an object, a map or a specification: pairs of a name and what it stands for, each name
once, in ascending order of the names. Names are ordered by their characters, which is also the
order of their UTF-8 bytes.
-/
namespace PluginBridge

/-- Members by name. The order is kept by `insert` and stated by `Fields.Ascending`. -/
abbrev Fields (α : Type) := List (String × α)

namespace Fields

variable {α β : Type}

/-- Each name is below all names after it, so no name occurs twice. -/
def Ascending (members : Fields α) : Prop :=
  members.Pairwise fun left right => left.1 < right.1

instance (members : Fields α) : Decidable members.Ascending :=
  inferInstanceAs (Decidable (List.Pairwise _ _))

def names (members : Fields α) : List String :=
  members.map (·.1)

def find? (name : String) : Fields α → Option α
  | [] => none
  | (key, a) :: rest => if key = name then some a else find? name rest

/-- Puts a member in its place, instead of the one that had its name. -/
def insert (name : String) (a : α) : Fields α → Fields α
  | [] => [(name, a)]
  | (key, b) :: rest =>
    if name < key then (name, a) :: (key, b) :: rest
    else if name = key then (name, a) :: rest
    else (key, b) :: insert name a rest

def insertAll (members : Fields α) (added : List (String × α)) : Fields α :=
  added.foldl (fun members member => members.insert member.1 member.2) members

/-- The members of a list of pairs; the last of those with one name counts. -/
def ofList (pairs : List (String × α)) : Fields α :=
  insertAll [] pairs

/-- All members of both, those of `top` where both have a name. -/
def overlay (base top : Fields α) : Fields α :=
  base.insertAll top

theorem find?_insert_self (name : String) (a : α) (members : Fields α) :
    (members.insert name a).find? name = some a := by
  induction members with
  | nil => simp [insert, find?]
  | cons member rest ih =>
    obtain ⟨key, b⟩ := member
    unfold insert
    split
    · simp [find?]
    · split
      · simp [find?]
      · rename_i _ distinct
        simp [find?, ih, Ne.symm distinct]

theorem find?_insert_of_ne {name other : String} (distinct : other ≠ name) (a : α)
    (members : Fields α) : (members.insert name a).find? other = members.find? other := by
  induction members with
  | nil => simp [insert, find?, Ne.symm distinct]
  | cons member rest ih =>
    obtain ⟨key, b⟩ := member
    unfold insert
    split
    · simp [find?, Ne.symm distinct]
    · split
      · rename_i _ same
        subst same
        simp [find?, Ne.symm distinct]
      · simp [find?, ih]

end Fields

end PluginBridge
