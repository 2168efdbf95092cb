import PluginBridge.Fields

/-!
# Types

The types of values. `any` stands for every value; an object type has its attributes in ascending
order of their names.
-/
namespace PluginBridge

inductive Ty where
  | any
  | bool
  | number
  | string
  | list (item : Ty)
  | set (item : Ty)
  | map (item : Ty)
  | tuple (items : List Ty)
  | object (attributes : List (String × Ty))
deriving Inhabited

namespace Ty

mutual

def equal : Ty → Ty → Bool
  | any, any => true
  | bool, bool => true
  | number, number => true
  | string, string => true
  | list a, list b => equal a b
  | set a, set b => equal a b
  | map a, map b => equal a b
  | tuple as, tuple bs => equalItems as bs
  | object as, object bs => equalAttributes as bs
  | _, _ => false

def equalItems : List Ty → List Ty → Bool
  | [], [] => true
  | a :: as, b :: bs => equal a b && equalItems as bs
  | _, _ => false

def equalAttributes : List (String × Ty) → List (String × Ty) → Bool
  | [], [] => true
  | (key, a) :: as, (name, b) :: bs => key == name && equal a b && equalAttributes as bs
  | _, _ => false

end

mutual

theorem equal_self : ∀ a : Ty, equal a a = true
  | any | bool | number | string => by simp [equal]
  | list a | set a | map a => by simp [equal, equal_self a]
  | tuple as => by simp [equal, equalItems_self as]
  | object as => by simp [equal, equalAttributes_self as]

theorem equalItems_self : ∀ as : List Ty, equalItems as as = true
  | [] => by simp [equalItems]
  | a :: as => by simp [equalItems, equal_self a, equalItems_self as]

theorem equalAttributes_self : ∀ as : List (String × Ty), equalAttributes as as = true
  | [] => by simp [equalAttributes]
  | (_, a) :: as => by simp [equalAttributes, equal_self a, equalAttributes_self as]

end

mutual

theorem eq_of_equal : ∀ (a b : Ty), equal a b = true → a = b
  | any, b, found => by cases b <;> simp_all [equal]
  | bool, b, found => by cases b <;> simp_all [equal]
  | number, b, found => by cases b <;> simp_all [equal]
  | string, b, found => by cases b <;> simp_all [equal]
  | list a, b, found => by
    cases b <;> simp only [equal, Bool.false_eq_true, list.injEq] at found ⊢
    exact eq_of_equal a _ found
  | set a, b, found => by
    cases b <;> simp only [equal, Bool.false_eq_true, set.injEq] at found ⊢
    exact eq_of_equal a _ found
  | map a, b, found => by
    cases b <;> simp only [equal, Bool.false_eq_true, map.injEq] at found ⊢
    exact eq_of_equal a _ found
  | tuple as, b, found => by
    cases b <;> simp only [equal, Bool.false_eq_true, tuple.injEq] at found ⊢
    exact eq_of_equalItems as _ found
  | object as, b, found => by
    cases b <;> simp only [equal, Bool.false_eq_true, object.injEq] at found ⊢
    exact eq_of_equalAttributes as _ found

theorem eq_of_equalItems : ∀ (as bs : List Ty), equalItems as bs = true → as = bs
  | [], bs, found => by cases bs <;> simp_all [equalItems]
  | a :: as, bs, found => by
    cases bs with
    | nil => simp [equalItems] at found
    | cons b bs =>
      simp only [equalItems, Bool.and_eq_true] at found
      rw [eq_of_equal a b found.1, eq_of_equalItems as bs found.2]

theorem eq_of_equalAttributes :
    ∀ (as bs : List (String × Ty)), equalAttributes as bs = true → as = bs
  | [], bs, found => by cases bs <;> simp_all [equalAttributes]
  | (key, a) :: as, bs, found => by
    cases bs with
    | nil => simp [equalAttributes] at found
    | cons member bs =>
      obtain ⟨name, b⟩ := member
      simp only [equalAttributes, Bool.and_eq_true, beq_iff_eq] at found
      rw [found.1.1, eq_of_equal a b found.1.2, eq_of_equalAttributes as bs found.2]

end

theorem equal_iff {a b : Ty} : equal a b = true ↔ a = b :=
  ⟨eq_of_equal a b, fun same => same ▸ equal_self a⟩

instance : DecidableEq Ty := fun _ _ => decidable_of_iff _ equal_iff

mutual

/-- Every object type inside has its attributes in ascending order. -/
def Ordered : Ty → Prop
  | any => True
  | bool => True
  | number => True
  | string => True
  | list item => Ordered item
  | set item => Ordered item
  | map item => Ordered item
  | tuple items => OrderedItems items
  | object attributes => Fields.Ascending attributes ∧ OrderedAttributes attributes

def OrderedItems : List Ty → Prop
  | [] => True
  | item :: rest => Ordered item ∧ OrderedItems rest

def OrderedAttributes : List (String × Ty) → Prop
  | [] => True
  | (_, ty) :: rest => Ordered ty ∧ OrderedAttributes rest

end

end Ty

end PluginBridge
