import Mathlib.Data.List.Infix
import Defender.Library.OrderedDict

/-!
# Growing lists and dictionaries

A list grows when its items stay in place, each up to a relation, and others
follow. A dictionary grows when its keys stay in order and each value grows, or
stays but under the keys entered again. Growth composes.
-/

namespace Defender.Library.Growth

open Defender.Library.OrderedDict

variable {α Key Value State : Type*}

/-- The first list is a prefix of the second one up to `relation`. -/
inductive PrefixUpTo (relation : α → α → Prop) : List α → List α → Prop where
  | nil (after : List α) : PrefixUpTo relation [] after
  | cons {head next : α} {tail more : List α} (same : relation head next)
      (rest : PrefixUpTo relation tail more) : PrefixUpTo relation (head :: tail) (next :: more)

section Lists

variable {relation : α → α → Prop}

theorem prefix_up_to_of_prefix (reflexive : ∀ item, relation item item) {before after : List α}
    (grows : before <+: after) : PrefixUpTo relation before after := by
  induction before generalizing after with
  | nil => exact .nil after
  | cons head tail ih =>
      cases after with
      | nil => simp at grows
      | cons next more =>
          rcases List.cons_prefix_cons.mp grows with ⟨rfl, further⟩
          exact .cons (reflexive head) (ih further)

theorem prefix_up_to_refl (reflexive : ∀ item, relation item item) (items : List α) :
    PrefixUpTo relation items items :=
  prefix_up_to_of_prefix reflexive (List.prefix_refl _)

theorem prefix_up_to_trans {first second third : List α}
    (early : PrefixUpTo relation first second) (late : PrefixUpTo relation second third)
    (transitive : ∀ first second third, relation first second → relation second third →
      relation first third) : PrefixUpTo relation first third := by
  induction early generalizing third with
  | nil after => exact .nil third
  | cons same _ ih =>
      cases late with
      | cons later rest => exact .cons (transitive _ _ _ same later) (ih rest)

theorem prefix_up_to_map {β : Type*} {other : β → β → Prop} {before after : List α}
    (grows : PrefixUpTo relation before after) (view : α → β)
    (keeps : ∀ first second, relation first second → other (view first) (view second)) :
    PrefixUpTo other (before.map view) (after.map view) := by
  induction grows with
  | nil after => exact .nil _
  | cons same _ ih => exact .cons (keeps _ _ same) ih

end Lists

/-- Keys keep their order and every value stays up to `relation`. -/
structure DictGrows [DecidableEq Key] (relation : Value → Value → Prop)
    (before after : Dict Key Value) : Prop where
  keys : before.keys <+: after.keys
  values : ∀ key value, before.get? key = some value →
    ∃ later, after.get? key = some later ∧ relation value later

section Dicts

variable [DecidableEq Key] {relation : Value → Value → Prop}

theorem dict_grows_refl (reflexive : ∀ value, relation value value) (dict : Dict Key Value) :
    DictGrows relation dict dict :=
  ⟨List.prefix_refl _, fun _ value held => ⟨value, held, reflexive value⟩⟩

theorem dict_grows_trans {first second third : Dict Key Value}
    (early : DictGrows relation first second) (late : DictGrows relation second third)
    (transitive : ∀ first second third, relation first second → relation second third →
      relation first third) : DictGrows relation first third where
  keys := early.keys.trans late.keys
  values := by
    intro key value held
    rcases early.values key value held with ⟨middle, heldMiddle, one⟩
    rcases late.values key middle heldMiddle with ⟨last, heldLast, two⟩
    exact ⟨last, heldLast, transitive _ _ _ one two⟩

theorem dict_grows_modify (reflexive : ∀ value, relation value value) (dict : Dict Key Value)
    (key : Key) (fresh : Value) (change : Value → Value)
    (grows : ∀ value, dict.get? key = some value → relation value (change value)) :
    DictGrows relation dict (dict.modify key fresh change) where
  keys := Dict.keys_prefix_set dict key _
  values := by
    intro other value held
    unfold Dict.modify
    rw [Dict.get_set]
    by_cases same : key = other
    · subst same
      exact ⟨change value, by simp [held], grows value held⟩
    · exact ⟨value, by rw [if_neg same, held], reflexive value⟩

theorem entries_grow {before after : List (Key × Value)}
    (distinct : (before.map Prod.fst).Nodup)
    (keys : before.map Prod.fst <+: after.map Prod.fst)
    (values : ∀ key value, Dict.lookup key before = some value →
      ∃ later, Dict.lookup key after = some later ∧ relation value later) :
    PrefixUpTo relation (before.map Prod.snd) (after.map Prod.snd) := by
  induction before generalizing after with
  | nil => exact .nil _
  | cons entry rest ih =>
      cases after with
      | nil => simp at keys
      | cons next more =>
          rcases entry with ⟨key, value⟩
          rcases next with ⟨nextKey, nextValue⟩
          simp only [List.map_cons, List.cons_prefix_cons] at keys
          rcases keys with ⟨rfl, further⟩
          simp only [List.map_cons, List.nodup_cons] at distinct
          have here := values key value (by simp [Dict.lookup])
          simp only [Dict.lookup, if_true, Option.some.injEq, exists_eq_left'] at here
          refine .cons here (ih distinct.2 further ?_)
          intro other held found
          have differs : key ≠ other := by
            rintro rfl
            exact distinct.1 ((Dict.lookup_isSome_iff key rest).mp (by simp [found]))
          have lifted := values other held (by simpa [Dict.lookup, differs] using found)
          simpa [Dict.lookup, differs] using lifted

theorem dict_grows_values {before after : Dict Key Value}
    (grows : DictGrows relation before after) :
    PrefixUpTo relation before.values after.values :=
  entries_grow before.nodup grows.keys grows.values

/-- The keys stay in order, and under a key that is not entered again nothing changes. -/
structure KeptUnless (again : Key → Prop) (before after : Dict Key Value) : Prop where
  keys : before.keys <+: after.keys
  values : ∀ key, ¬again key → before.get? key = after.get? key

theorem kept_unless_refl (again : Key → Prop) (dict : Dict Key Value) :
    KeptUnless again dict dict :=
  ⟨List.prefix_refl _, fun _ _ => rfl⟩

theorem kept_unless_trans {again : Key → Prop} {first second third : Dict Key Value}
    (early : KeptUnless again first second) (late : KeptUnless again second third) :
    KeptUnless again first third :=
  ⟨early.keys.trans late.keys,
    fun key silent => (early.values key silent).trans (late.values key silent)⟩

theorem kept_unless_set {again : Key → Prop} {key : Key} (entered : again key)
    (dict : Dict Key Value) (value : Value) : KeptUnless again dict (dict.set key value) where
  keys := Dict.keys_prefix_set dict key value
  values other silent := by
    rw [Dict.get_set, if_neg]
    rintro rfl
    exact silent entered

theorem kept_unless_update {again : Key → Prop} {other : Dict Key Value}
    (entered : ∀ key ∈ other.keys, again key) (dict : Dict Key Value) :
    KeptUnless again dict (dict.update other) where
  keys := Dict.keys_prefix_update dict other
  values key silent := by
    have absent : other.get? key = none := by
      by_contra present
      rw [← ne_eq, Option.ne_none_iff_isSome] at present
      exact silent (entered key ((Dict.lookup_isSome_iff key _).mp present))
    rw [Dict.get_update, absent, Option.none_or]

end Dicts

end Defender.Library.Growth
