import Mathlib.Data.List.Induction
import Mathlib.Data.List.Nodup
import Mathlib.Data.List.Perm.Subperm
import Payables.Collection.Labelled

/-!
# Values put under a list of labels

A list of labelled values keeps all its values iff its labels are distinct: `Labelled.ofList` is
then the list itself, and otherwise it is shorter. With distinct labels a look-up finds whatever is
in the list, so that its order does not matter.
-/

namespace Payables

section Lookup

variable {α : Type} {es es' : List (String × α)} {label : String} {a : α}

theorem mem_of_lookup_eq_some (h : es.lookup label = some a) : (label, a) ∈ es := by
  obtain ⟨before, after, rfl, -⟩ := List.lookup_eq_some_iff.1 h
  simp

theorem lookup_eq_some_iff_mem (h : (es.map Prod.fst).Nodup) :
    es.lookup label = some a ↔ (label, a) ∈ es := by
  refine ⟨mem_of_lookup_eq_some, fun hmem => ?_⟩
  obtain ⟨before, after, rfl⟩ := List.append_of_mem hmem
  refine List.lookup_eq_some_iff.2 ⟨before, after, rfl, fun e he => ?_⟩
  rw [List.map_append, List.nodup_append] at h
  have hne := h.2.2 e.1 (List.mem_map_of_mem he) label (by simp)
  simpa using hne.symm

theorem lookup_eq_none_iff_notMem : es.lookup label = none ↔ label ∉ es.map Prod.fst := by
  rw [List.lookup_eq_none_iff]
  simp only [bne_iff_ne, ne_eq, List.mem_map, not_exists, not_and]
  exact forall₂_congr fun e _ => ⟨fun hne heq => hne heq.symm, fun hne heq => hne heq.symm⟩

theorem lookup_eq_of_perm (h : (es.map Prod.fst).Nodup) (hperm : es.Perm es') (label : String) :
    es'.lookup label = es.lookup label := by
  have h' : (es'.map Prod.fst).Nodup := (hperm.map Prod.fst).nodup_iff.1 h
  refine Option.ext fun a => ?_
  rw [lookup_eq_some_iff_mem h, lookup_eq_some_iff_mem h', hperm.mem_iff]

end Lookup

namespace Labelled

variable {α : Type}

theorem put_of_not_mem {label : String} {es : List (String × α)} (h : label ∉ es.map Prod.fst)
    (a : α) : put label a es = es ++ [(label, a)] := by
  induction es with
  | nil => rfl
  | cons e es ih =>
    rw [List.map_cons, List.mem_cons, not_or] at h
    rw [put, if_neg (Ne.symm h.1), ih h.2, List.cons_append]

theorem ofList_concat (es : List (String × α)) (e : String × α) :
    ofList (es ++ [e]) = (ofList es).insert e.1 e.2 := List.foldl_concat ..

theorem entries_insert (l : Labelled α) (label : String) (a : α) :
    (l.insert label a).entries = put label a l.entries := rfl

theorem mem_labels_ofList {es : List (String × α)} {label : String} :
    label ∈ (ofList es).entries.map Prod.fst ↔ label ∈ es.map Prod.fst := by
  induction es using List.reverseRecOn with
  | nil => rfl
  | append_singleton es e ih =>
    rw [ofList_concat, entries_insert, labels_put, List.map_append, List.mem_append, ← ih]
    split
    · rename_i hmem
      rw [or_iff_left_of_imp]
      intro he
      rwa [List.map_singleton, List.mem_singleton.1 he] at *
    · rw [List.mem_append, List.map_singleton]

theorem entries_ofList {es : List (String × α)} (h : (es.map Prod.fst).Nodup) :
    (ofList es).entries = es := by
  induction es using List.reverseRecOn with
  | nil => rfl
  | append_singleton es e ih =>
    rw [List.map_append, List.map_singleton, List.nodup_append] at h
    have hnew : e.1 ∉ (ofList es).entries.map Prod.fst := by
      rw [mem_labels_ofList]
      exact fun hmem => h.2.2 _ hmem e.1 (List.mem_singleton_self _) rfl
    rw [ofList_concat, entries_insert, put_of_not_mem hnew, ih h.1]

/-- No value is lost only if the labels are distinct. -/
theorem nodup_of_length_ofList {es : List (String × α)}
    (h : (ofList es).entries.length = es.length) : (es.map Prod.fst).Nodup := by
  have hsub : ((ofList es).entries.map Prod.fst).Subperm (es.map Prod.fst) :=
    List.subperm_of_subset (ofList es).nodup fun _ hlabel => mem_labels_ofList.1 hlabel
  have hperm := hsub.perm_of_length_le (by simp [h])
  exact hperm.nodup_iff.1 (ofList es).nodup

end Labelled

end Payables
