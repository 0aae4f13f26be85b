import Mathlib.Data.List.Forall2
import Mathlib.Data.List.Nodup
import Mathlib.Data.List.Perm.Basic
import Payables.Json.Form
import Payables.Proofs.Collection.Labelled

/-!
# JSON values up to the order of members

Whoever passes a JSON value on may put the members of its objects in another order. `Reordered`
relates a value to all that can become of it in this way. With distinct names it does not matter to
a look-up: a member is found under its name, with what has become of its value.
-/

namespace Payables

section Lookup

variable {α : Type} {es es' : List (String × α)} {label : String} {a : α}

theorem lookup_map_snd {β : Type} (f : α → β) (es : List (String × α)) (label : String) :
    (es.map fun e => (e.1, f e.2)).lookup label = (es.lookup label).map f := by
  induction es with
  | nil => rfl
  | cons e es ih =>
    rw [List.map_cons, List.lookup_cons, List.lookup_cons, ih]
    split <;> rfl

theorem getElem?_foldl_insert {es : List (String × α)} (h : (es.map Prod.fst).Nodup)
    (m : Std.ExtTreeMap String α) (label : String) :
    (es.foldl (fun m e => m.insert e.1 e.2) m)[label]? = (es.lookup label).or m[label]? := by
  induction es generalizing m with
  | nil => rfl
  | cons e es ih =>
    obtain ⟨name, a⟩ := e
    obtain ⟨hname, hes⟩ := List.nodup_cons.1 h
    rw [List.foldl_cons, ih hes, Std.ExtTreeMap.getElem?_insert]
    by_cases hlabel : name = label
    · have hnone : es.lookup label = none := lookup_eq_none_iff_notMem.2 (hlabel ▸ hname)
      simp [hlabel, hnone]
    · rw [Labelled.lookup_cons_of_ne (Ne.symm hlabel)]
      simp [hlabel]

theorem nodup_labels_toList (m : Std.ExtTreeMap String α) : (m.toList.map Prod.fst).Nodup := by
  rw [Std.ExtTreeMap.map_fst_toList_eq_keys]
  exact Std.ExtTreeMap.nodup_keys

theorem lookup_toList (m : Std.ExtTreeMap String α) (label : String) :
    m.toList.lookup label = m[label]? := by
  refine Option.ext fun a => ?_
  rw [lookup_eq_some_iff_mem (nodup_labels_toList m),
    Std.ExtTreeMap.mem_toList_iff_getElem?_eq_some]

theorem filter_label_eq_singleton (h : (es.map Prod.fst).Nodup) (hmem : (label, a) ∈ es) :
    es.filter (·.1 == label) = [(label, a)] := by
  obtain ⟨before, after, rfl⟩ := List.append_of_mem hmem
  rw [List.map_append, List.map_cons, List.nodup_append, List.nodup_cons] at h
  obtain ⟨-, ⟨hafter, -⟩, hbefore⟩ := h
  have hnone : ∀ xs : List (String × α), label ∉ xs.map Prod.fst →
      xs.filter (·.1 == label) = [] := by
    intro xs hxs
    rw [List.filter_eq_nil_iff]
    intro x hx heq
    exact hxs (List.mem_map.2 ⟨x, hx, beq_iff_eq.1 heq⟩)
  have hbefore : label ∉ before.map Prod.fst := fun hmem =>
    hbefore label hmem label List.mem_cons_self rfl
  rw [List.filter_append, hnone before hbefore, List.filter_cons_of_pos (by simp),
    hnone after hafter, List.nil_append]

theorem lookup_filter_ne {name : String} (h : name ≠ label) :
    (es.filter (·.1 != label)).lookup name = es.lookup name := by
  induction es with
  | nil => rfl
  | cons e es ih =>
    obtain ⟨first, a⟩ := e
    by_cases hfirst : first = label
    · rw [List.filter_cons_of_neg (by simp [hfirst]), ih, hfirst, Labelled.lookup_cons_of_ne h]
    · rw [List.filter_cons_of_pos (by simp [hfirst]), List.lookup_cons, List.lookup_cons, ih]

end Lookup

theorem exists_mem_of_forall₂ {α β : Type} {R : α → β → Prop} {as : List α} {bs : List β}
    (h : List.Forall₂ R as bs) {b : β} (hb : b ∈ bs) : ∃ a ∈ as, R a b := by
  induction h with
  | nil => cases hb
  | cons hab _ ih =>
    rcases List.mem_cons.1 hb with rfl | hb
    · exact ⟨_, List.mem_cons_self, hab⟩
    · obtain ⟨a, ha, hR⟩ := ih hb
      exact ⟨a, List.mem_cons_of_mem _ ha, hR⟩

namespace Json

/-- The same value, but for the order of members in its objects. -/
inductive Reordered : Json → Json → Prop
  | refl (j : Json) : Reordered j j
  | array {xs ys : List Json} : List.Forall₂ Reordered xs ys → Reordered (.array xs) (.array ys)
  | object {ms ns ps : List (String × Json)} : ms.map Prod.fst = ns.map Prod.fst →
    List.Forall₂ Reordered (ms.map Prod.snd) (ns.map Prod.snd) → ns.Perm ps →
      Reordered (.object ms) (.object ps)

/-- A member that stands for another: the same name, and a value that has become of its value. -/
def MemberOf (m n : String × Json) : Prop := m.1 = n.1 ∧ Reordered m.2 n.2

theorem forall₂_memberOf {ms ns : List (String × Json)} (hnames : ms.map Prod.fst = ns.map Prod.fst)
    (hvalues : List.Forall₂ Reordered (ms.map Prod.snd) (ns.map Prod.snd)) :
    List.Forall₂ MemberOf ms ns := by
  induction ms generalizing ns with
  | nil =>
    rw [List.map_nil, eq_comm, List.map_eq_nil_iff] at hnames
    rw [hnames]
    exact .nil
  | cons m ms ih =>
    obtain ⟨n, ns, rfl, hname, hrest⟩ := List.map_eq_cons_iff.1 hnames.symm
    obtain ⟨hvalue, hvalues⟩ := List.forall₂_cons.1 hvalues
    exact .cons ⟨hname.symm, hvalue⟩ (ih hrest.symm hvalues)

variable {j : Json} {ms : List (String × Json)}

theorem Reordered.eq_string {s : String} (h : Reordered (.string s) j) : j = .string s := by
  cases h
  rfl

theorem Reordered.eq_integer {n : Int} (h : Reordered (.integer n) j) : j = .integer n := by
  cases h
  rfl

theorem Reordered.eq_bool {b : Bool} (h : Reordered (.bool b) j) : j = .bool b := by
  cases h
  rfl

theorem Reordered.eq_null (h : Reordered .null j) : j = .null := by
  cases h
  rfl

theorem Reordered.ne_null {x : Json} (h : Reordered x j) (hx : x ≠ .null) : j ≠ .null := by
  rintro rfl
  cases h
  exact hx rfl

theorem Reordered.exists_array {xs : List Json} (h : Reordered (.array xs) j) :
    ∃ ys, j = .array ys ∧ List.Forall₂ Reordered xs ys := by
  cases h with
  | refl => exact ⟨xs, rfl, List.forall₂_same.2 fun x _ => .refl x⟩
  | array h => exact ⟨_, rfl, h⟩

theorem Reordered.exists_object (h : Reordered (.object ms) j) :
    ∃ ns ps, j = .object ps ∧ List.Forall₂ MemberOf ms ns ∧ ns.Perm ps := by
  cases h with
  | refl => exact ⟨ms, ms, rfl, List.forall₂_same.2 fun m _ => ⟨rfl, .refl m.2⟩, .refl ms⟩
  | object hnames hvalues hperm => exact ⟨_, _, rfl, forall₂_memberOf hnames hvalues, hperm⟩

theorem names_eq_of_forall₂ {ns : List (String × Json)} (h : List.Forall₂ MemberOf ms ns) :
    ns.map Prod.fst = ms.map Prod.fst := by
  induction h with
  | nil => rfl
  | cons hmember _ ih => rw [List.map_cons, List.map_cons, hmember.1, ih]

theorem lookup_of_forall₂ {ns : List (String × Json)} (h : List.Forall₂ MemberOf ms ns)
    {name : String} {x : Json} (hx : ms.lookup name = some x) :
    ∃ y, ns.lookup name = some y ∧ Reordered x y := by
  induction h with
  | nil => cases hx
  | @cons m n ms ns hmember _ ih =>
    rw [List.lookup_cons] at hx ⊢
    rw [← hmember.1]
    split at hx
    · exact ⟨n.2, rfl, Option.some.inj hx ▸ hmember.2⟩
    · exact ih hx

/-- The members of an object as who looks for them by name sees them. -/
structure Shows (ms ps : List (String × Json)) : Prop where
  nodup : (ps.map Prod.fst).Nodup
  lookup_some : ∀ name x, ms.lookup name = some x → ∃ y, ps.lookup name = some y ∧ Reordered x y
  lookup_none : ∀ name, ms.lookup name = none → ps.lookup name = none

theorem Reordered.shows (h : Reordered (.object ms) j) (hms : (ms.map Prod.fst).Nodup) :
    ∃ ps, j = .object ps ∧ Shows ms ps := by
  obtain ⟨ns, ps, rfl, hmembers, hperm⟩ := h.exists_object
  have hnames := names_eq_of_forall₂ hmembers
  have hns : (ns.map Prod.fst).Nodup := hnames ▸ hms
  refine ⟨ps, rfl, (hperm.map Prod.fst).nodup_iff.1 hns, ?_, ?_⟩
  · intro name x hx
    rw [lookup_eq_of_perm hns hperm]
    exact lookup_of_forall₂ hmembers hx
  · intro name hnone
    rw [lookup_eq_of_perm hns hperm, lookup_eq_none_iff_notMem, hnames]
    exact lookup_eq_none_iff_notMem.1 hnone

theorem Shows.exists_of_mem {ps : List (String × Json)} (h : Shows ms ps) {m : String × Json}
    (hm : m ∈ ps) : ∃ x, ms.lookup m.1 = some x ∧ Reordered x m.2 := by
  have hlookup : ps.lookup m.1 = some m.2 := (lookup_eq_some_iff_mem h.nodup).2 hm
  cases hx : ms.lookup m.1 with
  | none => rw [h.lookup_none m.1 hx] at hlookup; cases hlookup
  | some x =>
    obtain ⟨y, hy, hreordered⟩ := h.lookup_some m.1 x hx
    obtain rfl := Option.some.inj (hlookup.symm.trans hy)
    exact ⟨x, rfl, hreordered⟩

end Json

end Payables
