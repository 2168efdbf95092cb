import PluginBridge.Compact.Spec
import PluginBridge.Proofs.Steady

/-! The readers of the compact encoding do not look behind what they take. A number says how many
groups it has, and every sequence how long it is, so nothing is found by where the bytes end. -/

namespace PluginBridge.Compact

open Reader

theorem steady_readGroups (groups : Nat) : (readGroups groups).Steady := by
  induction groups with
  | zero => exact keptBy_throw _ _
  | succ groups ih =>
    unfold readGroups
    apply (steady_byte _).bind
    intro group
    split
    · exact steady_pure _
    · exact ih.bind fun rest => steady_pure _

theorem steady_readVarint (bits : Nat) : (readVarint bits).Steady := by
  unfold readVarint
  apply (steady_readGroups _).bind
  intro n
  split
  · exact steady_pure n
  · exact keptBy_throw _ _

namespace Form

theorem steady_size : size.read.Steady :=
  steady_readVarint 64

theorem steady_word32 : word32.read.Steady :=
  (steady_readVarint 32).bind fun _ => steady_pure _

theorem steady_bool : bool.read.Steady := by
  apply (steady_byte _).bind
  intro b
  split
  · exact steady_pure false
  · exact steady_pure true
  · exact keptBy_throw _ _

theorem steady_number : number.read.Steady :=
  (steady_take _ 8).bind fun _ => steady_pure _

theorem steady_bytes : bytes.read.Steady :=
  steady_size.bind fun count => steady_take _ count

theorem steady_text : text.read.Steady := by
  apply steady_bytes.bind
  intro content
  split
  · exact steady_pure _
  · exact keptBy_throw _ _

theorem steady_pair {α β : Type} {first : Form α} {second : Form β} (left : first.read.Steady)
    (right : second.read.Steady) : (first.pair second).read.Steady :=
  left.bind fun a => right.bind fun b => steady_pure (a, b)

end Form

section Containers

variable {α : Type} {short long : Reader Error α}

theorem keptBy_readNamed (kept : short.KeptBy long) : (readNamed short).KeptBy (readNamed long) :=
  Form.steady_text.bind fun name => kept.bind fun a => steady_pure (name, a)

theorem keptBy_readCounted (kept : short.KeptBy long) :
    (readCounted short).KeptBy (readCounted long) :=
  Form.steady_size.bind fun count => kept.exactly count

end Containers

/-! ## Values -/

theorem keptBy_readValueWithin (less more : Nat) (atMost : less ≤ more) :
    (readValueWithin less).KeptBy (readValueWithin more) := by
  induction less generalizing more with
  | zero => exact keptBy_throw _ _
  | succ less ih =>
    obtain ⟨more, rfl⟩ : ∃ fewer, more = fewer + 1 := ⟨more - 1, by omega⟩
    have inside := ih more (by omega)
    have items := keptBy_readCounted inside
    have members := keptBy_readCounted (keptBy_readNamed inside)
    apply (steady_readVarint 32).bind
    intro kind
    match kind with
    | 0 => exact steady_pure _
    | 1 => exact Form.steady_bool.map _
    | 2 => exact Form.steady_number.map _
    | 3 => exact Form.steady_text.map _
    | 4 | 5 | 6 => exact items.map _
    | 7 | 8 => exact members.map _
    | _ + 9 => exact keptBy_throw _ _

theorem steady_readValue : readValue.Steady :=
  steady_fuelled keptBy_readValueWithin

/-! ## Types and specifications -/

theorem keptBy_readTyWithin (less more : Nat) (atMost : less ≤ more) :
    (readTyWithin less).KeptBy (readTyWithin more) := by
  induction less generalizing more with
  | zero => exact keptBy_throw _ _
  | succ less ih =>
    obtain ⟨more, rfl⟩ : ∃ fewer, more = fewer + 1 := ⟨more - 1, by omega⟩
    have inside := ih more (by omega)
    have items := keptBy_readCounted inside
    have attributes := keptBy_readCounted (keptBy_readNamed inside)
    apply (steady_readVarint 32).bind
    intro kind
    match kind with
    | 0 | 1 | 2 | 3 => exact steady_pure _
    | 4 | 5 | 6 => exact inside.map _
    | 7 => exact items.map _
    | 8 => exact attributes.map _
    | _ + 9 => exact keptBy_throw _ _

theorem steady_readTy : readTy.Steady :=
  steady_fuelled keptBy_readTyWithin

theorem keptBy_readSpecWithin (less more : Nat) (atMost : less ≤ more) :
    (readSpecWithin less).KeptBy (readSpecWithin more) := by
  induction less generalizing more with
  | zero => exact keptBy_throw _ _
  | succ less ih =>
    obtain ⟨more, rfl⟩ : ∃ fewer, more = fewer + 1 := ⟨more - 1, by omega⟩
    have inside := ih more (by omega)
    have entries := keptBy_readCounted (keptBy_readNamed inside)
    apply (steady_readVarint 32).bind
    intro kind
    match kind with
    | 0 => exact entries.map _
    | 1 =>
      exact Form.steady_text.bind fun name => steady_readTy.bind fun ty =>
        Form.steady_bool.bind fun required => steady_pure _
    | 2 =>
      exact Form.steady_text.bind fun name => inside.bind fun nested =>
        Form.steady_bool.bind fun required => steady_pure _
    | 3 =>
      exact Form.steady_text.bind fun name => inside.bind fun nested =>
        Form.steady_word32.bind fun least => Form.steady_word32.bind fun most => steady_pure _
    | 4 => exact steady_readValue.map _
    | 5 => exact inside.bind fun primary => inside.bind fun otherwise => steady_pure _
    | _ + 6 => exact keptBy_throw _ _

theorem steady_readSpec : readSpec.Steady :=
  steady_fuelled keptBy_readSpecWithin

theorem Form.steady_objectSpec : Form.objectSpec.read.Steady :=
  (keptBy_readCounted (keptBy_readNamed steady_readSpec)).map _

end PluginBridge.Compact
