import Payables.Proofs.Collection.Labelled
import Payables.Proofs.Json.Reordered

/-!
# Forms that are read back

A type is read back up to a relation if whatever becomes of a written value is read as a related
one; it has an `ExactForm` if that is the value itself. Lists and labelled values inherit this from
their elements, and a record inherits it from its fields: each of them is found under its name.
-/

namespace Payables

open Json

/-- Whatever becomes of the form of a value is read as a related value. -/
def ReadsBack {α : Type} [JsonForm α] (R : α → α → Prop) : Prop :=
  ∀ (a : α) (j : Json), Reordered (toJson a) j → ∃ b, ofJson? j = some b ∧ R a b

/-- Whatever becomes of the form of a value is read as that value, and it is never null. -/
class ExactForm (α : Type) [JsonForm α] : Prop where
  ofJson?_of_reordered : ∀ (a : α) (j : Json), Reordered (toJson a) j → ofJson? j = some a
  toJson_ne_null : ∀ a : α, toJson a ≠ .null

theorem readsBack_eq {α : Type} [JsonForm α] [ExactForm α] : ReadsBack (Eq : α → α → Prop) :=
  fun a j h => ⟨a, ExactForm.ofJson?_of_reordered a j h, rfl⟩

section Simple

instance : ExactForm String where
  ofJson?_of_reordered s j h := by
    rw [Reordered.eq_string h]
    rfl
  toJson_ne_null s h := by cases h

instance : ExactForm Bool where
  ofJson?_of_reordered b j h := by
    rw [Reordered.eq_bool h]
    rfl
  toJson_ne_null b h := by cases h

instance : ExactForm Nat where
  ofJson?_of_reordered n j h := by
    rw [Reordered.eq_integer h]
    exact if_pos (Int.natCast_nonneg n)
  toJson_ne_null n h := by cases h

instance : ExactForm UInt32 where
  ofJson?_of_reordered n j h := by
    have hfits : 0 ≤ (n.toNat : Int) ∧ (n.toNat : Int).toNat < UInt32.size :=
      ⟨Int.natCast_nonneg _, n.toNat_lt_size⟩
    rw [Reordered.eq_integer h]
    refine (if_pos hfits).trans ?_
    rw [Int.toNat_natCast, UInt32.ofNat_toNat]
  toJson_ne_null n h := by cases h

theorem ofWord_of_reordered {α : Type} {words : List (String × α)} {word : String} {a : α}
    {j : Json} (h : Reordered (.string word) j) (hword : words.lookup word = some a) :
    Json.ofWord words j = some a := by
  rw [h.eq_string]
  exact hword

end Simple

theorem eq_of_rel_eq {α : Type} {a? b? : Option α} (h : Option.Rel Eq a? b?) : a? = b? := by
  cases h with
  | none => rfl
  | some h => rw [h]

section Collections

variable {α : Type} [JsonForm α]

theorem ofJson?_option_of_reordered [ExactForm α] (a? : Option α) {j : Json}
    (h : Reordered (toJson a?) j) : ofJson? j = some a? := by
  cases a? with
  | none =>
    rw [Reordered.eq_null h]
    rfl
  | some a =>
    have hne : j ≠ .null := h.ne_null (ExactForm.toJson_ne_null a)
    have hread : (ofJson? j : Option α) = some a := ExactForm.ofJson?_of_reordered a j h
    have hoption : (ofJson? j : Option (Option α)) = (ofJson? j : Option α).map some := by
      cases j with
      | null => exact absurd rfl hne
      | _ => rfl
    rw [hoption, hread, Option.map_some]

theorem exists_mapM_of_forall₂ {R : α → α → Prop} (hR : ReadsBack R) {as : List α}
    {ys : List Json} (h : List.Forall₂ Reordered (as.map toJson) ys) :
    ∃ bs, ys.mapM ofJson? = some bs ∧ List.Forall₂ R as bs := by
  induction as generalizing ys with
  | nil =>
    rw [List.map_nil, List.forall₂_nil_left_iff] at h
    rw [h]
    exact ⟨[], rfl, .nil⟩
  | cons a as ih =>
    rw [List.map_cons, List.forall₂_cons_left_iff] at h
    obtain ⟨y, ys, hy, hys, rfl⟩ := h
    obtain ⟨b, hb, hab⟩ := hR a y hy
    obtain ⟨bs, hbs, hasbs⟩ := ih hys
    refine ⟨b :: bs, ?_, .cons hab hasbs⟩
    rw [List.mapM_cons, hb, hbs]
    rfl

theorem readsBack_list {R : α → α → Prop} (hR : ReadsBack R) : ReadsBack (List.Forall₂ R) := by
  intro as j h
  obtain ⟨ys, rfl, hys⟩ := Reordered.exists_array h
  exact exists_mapM_of_forall₂ hR hys

instance [ExactForm α] : ExactForm (List α) where
  ofJson?_of_reordered as j h := by
    obtain ⟨bs, hbs, heq⟩ := readsBack_list readsBack_eq as j h
    rw [List.forall₂_eq_eq_eq] at heq
    rw [hbs, heq]
  toJson_ne_null as h := by cases h

theorem exists_members? {ps : List (String × Json)}
    (h : ∀ m ∈ ps, ∃ a : α, ofJson? m.2 = some a) :
    ∃ es : List (String × α), members? (.object ps) = some es ∧
      es.map Prod.fst = ps.map Prod.fst ∧
      ∀ label, es.lookup label = (ps.lookup label).bind ofJson? := by
  induction ps with
  | nil => exact ⟨[], rfl, rfl, fun label => rfl⟩
  | cons m ps ih =>
    obtain ⟨⟨a, ha⟩, hps⟩ := List.forall_mem_cons.1 h
    obtain ⟨es, hes, hnames, hlookup⟩ := ih hps
    refine ⟨(m.1, a) :: es, ?_, ?_, fun label => ?_⟩
    · change List.mapM _ (m :: ps) = _
      rw [List.mapM_cons, ha, Option.map_some, show List.mapM _ ps = some es from hes]
      rfl
    · rw [List.map_cons, List.map_cons, hnames]
    · rw [List.lookup_cons, List.lookup_cons, hlookup]
      split
      · exact ha.symm
      · rfl

/-- The values under labels are read back, in whatever order they come. -/
theorem exists_members?_of_reordered {R : α → α → Prop} (hR : ReadsBack R)
    {es : List (String × α)} (hes : (es.map Prod.fst).Nodup) {j : Json}
    (h : Reordered (.object (es.map fun e => (e.1, toJson e.2))) j) :
    ∃ es' : List (String × α), members? j = some es' ∧ (es'.map Prod.fst).Nodup ∧
      ∀ label, Option.Rel R (es.lookup label) (es'.lookup label) := by
  have hnodup : ((es.map fun e => (e.1, toJson e.2)).map Prod.fst).Nodup := by
    rwa [List.map_map]
  obtain ⟨ps, rfl, hshows⟩ := h.shows hnodup
  have hread : ∀ m ∈ ps, ∃ b : α, ofJson? m.2 = some b := by
    intro m hm
    obtain ⟨x, hx, hreordered⟩ := hshows.exists_of_mem hm
    rw [lookup_map_snd, Option.map_eq_some_iff] at hx
    obtain ⟨a, -, rfl⟩ := hx
    obtain ⟨b, hb, -⟩ := hR a m.2 hreordered
    exact ⟨b, hb⟩
  obtain ⟨es', hes', hnames, hlookup⟩ := exists_members? hread
  refine ⟨es', hes', hnames ▸ hshows.nodup, fun label => ?_⟩
  rw [hlookup]
  cases ha : es.lookup label with
  | none =>
    rw [hshows.lookup_none label (by rw [lookup_map_snd, ha]; rfl)]
    exact .none
  | some a =>
    obtain ⟨y, hy, hreordered⟩ := hshows.lookup_some label (toJson a)
      (by rw [lookup_map_snd, ha]; rfl)
    obtain ⟨b, hb, hab⟩ := hR a y hreordered
    rw [hy, Option.bind_some, hb]
    exact .some hab

/-- Labelled values that have the same labels, with related values under each. -/
def Labelled.Agree (R : α → α → Prop) (l l' : Labelled α) : Prop :=
  ∀ label, Option.Rel R (l.get? label) (l'.get? label)

theorem readsBack_labelled {R : α → α → Prop} (hR : ReadsBack R) :
    ReadsBack (Labelled.Agree R) := by
  intro l j h
  obtain ⟨es, hes, hnodup, hlookup⟩ := exists_members?_of_reordered hR l.nodup h
  refine ⟨Labelled.ofList es, congrArg (Option.map Labelled.ofList) hes, fun label => ?_⟩
  rw [Labelled.get?, Labelled.get?, Labelled.entries_ofList hnodup]
  exact hlookup label

instance [ExactForm α] : ExactForm (Std.ExtTreeMap String α) where
  ofJson?_of_reordered m j h := by
    obtain ⟨es, hes, hnodup, hlookup⟩ :=
      exists_members?_of_reordered readsBack_eq (nodup_labels_toList m) h
    refine (congrArg (Option.map _) hes).trans (congrArg some ?_)
    refine Std.ExtTreeMap.ext_getElem? fun label => ?_
    rw [getElem?_foldl_insert hnodup, Std.ExtTreeMap.getElem?_empty, Option.or_none,
      ← lookup_toList]
    exact (eq_of_rel_eq (hlookup label)).symm
  toJson_ne_null m h := by cases h

end Collections

namespace Json.Fields

/-- The fields are those of an object with these members, in whatever order. -/
structure Has (f : Fields) (ms : List (String × Json)) : Prop where
  positional : f.positional = false
  shows : Shows ms f.given

variable {f : Fields} {ms : List (String × Json)} {name : String}

section

variable {α : Type} [JsonForm α]

theorem Has.exists_required {R : α → α → Prop} (h : f.Has ms) (name : String) (hR : ReadsBack R)
    {a : α} (ha : ms.lookup name = some (toJson a)) : ∃ b, f.required name = some b ∧ R a b := by
  obtain ⟨y, hy, hreordered⟩ := h.shows.lookup_some name _ ha
  obtain ⟨b, hb, hab⟩ := hR a y hreordered
  exact ⟨b, by rw [required, hy, Option.bind_eq_bind, Option.bind_some, hb], hab⟩

variable [ExactForm α]

theorem Has.required (h : f.Has ms) {a : α} (ha : ms.lookup name = some (toJson a)) :
    f.required name = some a := by
  obtain ⟨b, hb, rfl⟩ := h.exists_required name readsBack_eq ha
  exact hb

theorem Has.optional (h : f.Has ms) {a? : Option α} (ha : ms.lookup name = some (toJson a?)) :
    f.optional name = some a? := by
  obtain ⟨y, hy, hreordered⟩ := h.shows.lookup_some name _ ha
  have hread := ofJson?_option_of_reordered a? hreordered
  rw [Fields.optional, hy]
  cases y with
  | null => exact hread
  | _ => exact hread

theorem Has.withDefault (h : f.Has ms) {a : α} (ha : ms.lookup name = some (toJson a))
    (default : α) : f.withDefault name default = some a := by
  obtain ⟨y, hy, hreordered⟩ := h.shows.lookup_some name _ ha
  rw [Fields.withDefault, hy]
  exact ExactForm.ofJson?_of_reordered a y hreordered

theorem Has.withDefault_option (h : f.Has ms) {a? : Option α}
    (ha : ms.lookup name = some (toJson a?)) (default : Option α) :
    f.withDefault name default = some a? := by
  obtain ⟨y, hy, hreordered⟩ := h.shows.lookup_some name _ ha
  rw [Fields.withDefault, hy]
  exact ofJson?_option_of_reordered a? hreordered

theorem Has.withDefault_none (h : f.Has ms) {a? : Option α}
    (ha : ms.lookup name = a?.map toJson) : f.withDefault name (none : Option α) = some a? := by
  cases a? with
  | none => rw [Fields.withDefault, h.shows.lookup_none name ha]
  | some a => exact h.withDefault_option ha none

end

end Json.Fields

theorem Json.Shows.exists_fields? {ms ps : List (String × Json)} (h : Shows ms ps)
    (names : List String) : ∃ f, (Json.object ps).fields? names = some f ∧ f.Has ms := by
  refine ⟨⟨false, ps⟩, if_pos ?_, rfl, h⟩
  rw [List.all_eq_true]
  intro name _
  have hcount : (ps.map Prod.fst).count name ≤ 1 := List.nodup_iff_count_le_one.1 h.nodup name
  rw [List.count, List.countP_map, List.countP_eq_length_filter] at hcount
  exact decide_eq_true hcount

theorem Json.Reordered.exists_fields? {ms : List (String × Json)} {j : Json}
    (h : Reordered (.object ms) j) (hms : (ms.map Prod.fst).Nodup) (names : List String) :
    ∃ f, j.fields? names = some f ∧ f.Has ms := by
  obtain ⟨ps, rfl, hshows⟩ := h.shows hms
  exact hshows.exists_fields? names

end Payables
