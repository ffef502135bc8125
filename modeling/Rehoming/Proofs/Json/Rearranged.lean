import Mathlib.Data.List.Perm.Basic
import Mathlib.Logic.Relation
import Rehoming.Proofs.Json.Members

/-! Trees that differ in the order in which some object has its members. As long as the names of
these members differ, readers do not tell such trees apart: it is shown for one object, wherever in
the tree it stands, and so for any number of them. -/

namespace Rehoming

open Relation (ReflGen)

/-! ## Order -/

section Order

variable {α β : Type}

theorem mapM_perm {f : α → Option β} {xs xs' : List α} {ys : List β} (h : xs.mapM f = some ys)
    (order : xs.Perm xs') : ∃ ys', xs'.mapM f = some ys' ∧ ys.Perm ys' := by
  obtain ⟨ys', made, same⟩ := List.perm_comp_forall₂ order.symm (mapM_some_iff.mp h)
  exact ⟨ys', mapM_some_iff.mpr made, same.symm⟩

/-- The work on one element stands between the work before it and the work after it. -/
theorem mapM_append_cons_iff {f : α → Option β} {front back : List α} {x : α} {ys : List β} :
    (front ++ x :: back).mapM f = some ys ↔ ∃ before y after, front.mapM f = some before ∧
      f x = some y ∧ back.mapM f = some after ∧ ys = before ++ y :: after := by
  rw [List.mapM_append, List.mapM_cons]
  constructor
  · intro h
    obtain ⟨before, first, h⟩ := Option.bind_eq_some_iff.mp h
    obtain ⟨others, middle, h⟩ := Option.bind_eq_some_iff.mp h
    obtain ⟨y, own, middle⟩ := Option.bind_eq_some_iff.mp middle
    obtain ⟨after, last, middle⟩ := Option.bind_eq_some_iff.mp middle
    cases middle
    cases h
    exact ⟨before, y, after, first, own, last, rfl⟩
  · rintro ⟨before, y, after, first, own, last, rfl⟩
    simp only [first, own, last, Option.bind_eq_bind, Option.bind_some, Option.pure_def]

end Order

namespace Json

/-- One object in the tree has its members in another order; their names differ. -/
inductive Node.Rearranged : Node → Node → Prop where
  | object {members members' : List (List Text.Symbol × Node)} (order : members.Perm members')
      (distinct : (members.map fun m => Token.decode? m.1).Nodup) :
      Rearranged (.object members) (.object members')
  | item {front back : List Node} {node node' : Node} (inner : Rearranged node node') :
      Rearranged (.array (front ++ node :: back)) (.array (front ++ node' :: back))
  | member {front back : List (List Text.Symbol × Node)} {name : List Text.Symbol}
      {node node' : Node} (inner : Rearranged node node') :
      Rearranged (.object (front ++ (name, node) :: back))
        (.object (front ++ (name, node') :: back))

/-- A reader that gives the same for rearranged trees. -/
def Reader.Stable {α : Type} (read : Reader α) : Prop :=
  ∀ ⦃depth : Nat⦄ ⦃node node' : Node⦄ ⦃a : α⦄, node.Rearranged node' →
    read depth node = some a → read depth node' = some a

theorem names_nodup_of_decoded {members : List (List Text.Symbol × Node)}
    {named : List (String × Node)}
    (distinct : (members.map fun m => Token.decode? m.1).Nodup)
    (decoded : (members.mapM fun m => (Token.decode? m.1).map fun name => (name, m.2)) =
      some named) :
    (named.map (·.1)).Nodup := by
  have names : (members.map fun m => Token.decode? m.1) = (named.map (·.1)).map some := by
    clear distinct
    replace decoded := mapM_some_iff.mp decoded
    induction decoded with
    | nil => rfl
    | cons here _ ih =>
      obtain ⟨name, known, rfl⟩ := Option.map_eq_some_iff.mp here
      rw [List.map_cons, ih, known]
      rfl
  rw [names] at distinct
  exact distinct.of_map some

/-- A member in its place: its name is made out, and the tree under it stays. -/
theorem decoded_append_cons_iff {front back : List (List Text.Symbol × Node)}
    {name : List Text.Symbol} {node : Node} {named : List (String × Node)} :
    ((front ++ (name, node) :: back).mapM fun m =>
        (Token.decode? m.1).map fun name => (name, m.2)) = some named ↔
      ∃ before own after,
        (front.mapM fun m => (Token.decode? m.1).map fun name => (name, m.2)) = some before ∧
        Token.decode? name = some own ∧
        (back.mapM fun m => (Token.decode? m.1).map fun name => (name, m.2)) = some after ∧
        named = before ++ (own, node) :: after := by
  rw [mapM_append_cons_iff]
  constructor
  · rintro ⟨before, y, after, first, here, last, rfl⟩
    obtain ⟨own, known, rfl⟩ := Option.map_eq_some_iff.mp here
    exact ⟨before, own, after, first, known, last, rfl⟩
  · rintro ⟨before, own, after, first, known, last, rfl⟩
    exact ⟨before, (own, node), after, first, by rw [known]; rfl, last, rfl⟩

/-- **Plain values do not depend on the order of members.** -/
theorem Reader.value_stable : Stable value := by
  intro depth node node' v h
  induction h generalizing depth v with
  | object order distinct =>
    intro read
    obtain _ | depth := depth
    · cases read
    obtain ⟨named, values, decoded, made, rfl⟩ := Value.ofNode?_object_iff.mp read
    obtain ⟨named', decoded', moved⟩ := mapM_perm decoded order
    obtain ⟨values', made', moved'⟩ := mapM_perm made moved
    have names : (values.map (·.1)).Nodup := by
      rw [names_of_mapM made]
      exact names_nodup_of_decoded distinct decoded
    refine Value.ofNode?_object_iff.mpr ⟨named', values', decoded', made', ?_⟩
    rw [NameMap.ofList_congr moved' names]
  | item _ ih =>
    intro read
    obtain _ | depth := depth
    · cases read
    obtain ⟨items, made, rfl⟩ := Option.map_eq_some_iff.mp read
    obtain ⟨before, own, after, first, here, last, rfl⟩ := mapM_append_cons_iff.mp made
    exact Option.map_eq_some_iff.mpr
      ⟨_, mapM_append_cons_iff.mpr ⟨before, own, after, first, ih here, last, rfl⟩, rfl⟩
  | member _ ih =>
    intro read
    obtain _ | depth := depth
    · cases read
    obtain ⟨named, values, decoded, made, rfl⟩ := Value.ofNode?_object_iff.mp read
    obtain ⟨before, own, after, first, known, last, rfl⟩ := decoded_append_cons_iff.mp decoded
    obtain ⟨front, e, back, first', mine, last', rfl⟩ := mapM_append_cons_iff.mp made
    obtain ⟨v, here, rfl⟩ := Option.map_eq_some_iff.mp mine
    refine Value.ofNode?_object_iff.mpr ⟨_, _,
      decoded_append_cons_iff.mpr ⟨before, own, after, first, known, last, rfl⟩,
      mapM_append_cons_iff.mpr ⟨front, (own, v), back, first', ?_, last', rfl⟩, rfl⟩
    exact Option.map_eq_some_iff.mpr ⟨v, ih here, rfl⟩

/-! ## Readers -/

namespace Reader

theorem text_stable : Stable text := by
  intro depth node node' s h read
  cases h <;> cases read

theorem int64_stable : Stable int64 := by
  intro depth node node' i h read
  cases h <;> cases read

theorem parsed_stable {α : Type} (parse : String → Option α) : Stable (parsed parse) := by
  intro depth node node' a h read
  obtain ⟨s, text, rest⟩ := Option.bind_eq_some_iff.mp read
  exact Option.bind_eq_some_iff.mpr ⟨s, text_stable h text, rest⟩

theorem list_stable {α : Type} {read : Reader α} (stable : Stable read) : Stable (list read) := by
  intro depth node node' as h made
  obtain ⟨inner, items, rfl, rfl, made⟩ := list_eq_some made
  cases h with
  | item h =>
    obtain ⟨before, own, after, first, here, last, rfl⟩ := mapM_append_cons_iff.mp made
    exact mapM_append_cons_iff.mpr ⟨before, own, after, first, stable h here, last, rfl⟩

end Reader

namespace Fields

/-- Two records have the same fields, up to the order inside one of them. -/
def Rearranged (fields fields' : Fields) : Prop :=
  ∀ name, Option.Rel (ReflGen Node.Rearranged) (fields.lookup name) (fields'.lookup name)

theorem rearranged_refl (fields : Fields) : fields.Rearranged fields := fun name => by
  cases fields.lookup name with
  | none => exact .none
  | some node => exact .some .refl

theorem rearranged_append_cons {front back : Fields} {own : String} {node node' : Node}
    (h : node.Rearranged node') :
    Rearranged (front ++ (own, node) :: back) (front ++ (own, node') :: back) := fun name => by
  rw [List.lookup_append, List.lookup_append]
  cases front.lookup name with
  | some n => exact .some .refl
  | none =>
    rw [List.lookup_cons, List.lookup_cons]
    cases name == own with
    | true => exact .some (.single h)
    | false => exact rearranged_refl back name

variable {fields fields' : Fields}

section Field

variable {α : Type} {read : Reader α} {depth : Nat} {name : String} {a : α}

theorem Rearranged.required (h : fields.Rearranged fields') (stable : Reader.Stable read)
    (given : fields.required depth name read = some a) :
    fields'.required depth name read = some a := by
  have field := h name
  unfold Fields.required at *
  generalize fields.lookup name = x at *
  generalize fields'.lookup name = y at *
  cases field with
  | none => cases given
  | some step =>
    cases step with
    | refl => exact given
    | single step => exact stable step given

theorem Rearranged.optional {default : α} (h : fields.Rearranged fields')
    (stable : Reader.Stable read) (given : fields.optional depth name default read = some a) :
    fields'.optional depth name default read = some a := by
  have field := h name
  unfold Fields.optional at *
  generalize fields.lookup name = x at *
  generalize fields'.lookup name = y at *
  cases field with
  | none => exact given
  | some step =>
    cases step with
    | refl => exact given
    | single step => exact stable step given

end Field

/-- **Open records do not depend on the order of members.** What they carry along is the same. -/
theorem readOpen_rearranged {names : List String} {depth : Nat} {node node' : Node}
    {others : NameMap Value} (h : node.Rearranged node')
    (record : readOpen names depth node = some (fields, others)) :
    ∃ fields', readOpen names depth node' = some (fields', others) ∧
      fields.Rearranged fields' := by
  obtain ⟨inner, members, named, values, rfl, rfl, decoded, read, once, rfl, rfl⟩ :=
    readOpen_eq_some_iff.mp record
  cases h with
  | object order distinct =>
    obtain ⟨named', decoded', moved⟩ := mapM_perm decoded order
    obtain ⟨values', read', moved'⟩ := mapM_perm read (moved.filter _)
    have names' : (values.map (·.1)).Nodup := by
      rw [names_of_mapM read]
      exact (names_nodup_of_decoded distinct decoded).sublist (List.filter_sublist.map _)
    have own := moved.filter fun m => names.contains m.1
    refine ⟨named'.filter fun m => names.contains m.1, readOpen_eq_some_iff.mpr ⟨inner, _, named',
      values', rfl, rfl, decoded', read', (own.map _).nodup_iff.mp once, rfl,
      NameMap.ofList_congr moved' names'⟩, fun name => ?_⟩
    rw [lookup_perm own once]
    exact rearranged_refl _ name
  | member h =>
    rename_i name node node'
    obtain ⟨before, own, after, first, known, last, rfl⟩ := decoded_append_cons_iff.mp decoded
    have decoded' := decoded_append_cons_iff.mpr
      ⟨before, own, after, first, known, last, Eq.refl (before ++ (own, node') :: after)⟩
    have kept (p : String → Bool) (n : Node) (h : p own = true) :
        ((before ++ (own, n) :: after).filter fun m => p m.1) =
          (before.filter fun m => p m.1) ++ (own, n) :: after.filter fun m => p m.1 := by
      rw [List.filter_append, List.filter_cons, if_pos h]
    have dropped (p : String → Bool) (n : Node) (h : ¬ p own = true) :
        ((before ++ (own, n) :: after).filter fun m => p m.1) =
          (before.filter fun m => p m.1) ++ after.filter fun m => p m.1 := by
      rw [List.filter_append, List.filter_cons, if_neg h]
    by_cases mine : names.contains own = true
    · rw [kept _ _ mine] at once ⊢
      rw [dropped (fun n => !names.contains n) _ (by simpa using mine)] at read
      refine ⟨_, readOpen_eq_some_iff.mpr
        ⟨inner, _, _, values, rfl, rfl, decoded', ?_, ?_, rfl, rfl⟩, ?_⟩
      · rw [dropped (fun n => !names.contains n) _ (by simpa using mine)]
        exact read
      · rw [kept _ _ mine]
        simpa using once
      · rw [kept _ _ mine]
        exact rearranged_append_cons h
    · rw [dropped _ _ mine] at once ⊢
      rw [kept (fun n => !names.contains n) _ (by simpa using mine)] at read
      obtain ⟨front, e, back, first', one, last', rfl⟩ := mapM_append_cons_iff.mp read
      obtain ⟨v, here, rfl⟩ := Option.map_eq_some_iff.mp one
      refine ⟨_, readOpen_eq_some_iff.mpr
        ⟨inner, _, _, _, rfl, rfl, decoded', ?_, ?_, rfl, rfl⟩, ?_⟩
      · rw [kept (fun n => !names.contains n) _ (by simpa using mine)]
        exact mapM_append_cons_iff.mpr ⟨front, (own, v), back, first',
          Option.map_eq_some_iff.mpr ⟨v, Reader.value_stable h here, rfl⟩, last', rfl⟩
      · rw [dropped _ _ mine]
        exact once
      · rw [dropped _ _ mine]
        exact rearranged_refl _

end Fields
end Json
end Rehoming
