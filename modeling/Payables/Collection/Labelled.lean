/-!
# Values under labels

A `Labelled α` holds values under distinct labels in the order in which the labels first came. A
value that is put under a known label takes the place of the old one.
-/

namespace Payables

structure Labelled (α : Type) where
  entries : List (String × α)
  nodup : (entries.map Prod.fst).Nodup
deriving DecidableEq

namespace Labelled

variable {α : Type}

def put (label : String) (a : α) : List (String × α) → List (String × α)
  | [] => [(label, a)]
  | e :: es => if e.1 = label then (label, a) :: es else e :: put label a es

theorem labels_put (label : String) (a : α) (es : List (String × α)) :
    (put label a es).map Prod.fst =
      if label ∈ es.map Prod.fst then es.map Prod.fst else es.map Prod.fst ++ [label] := by
  induction es with
  | nil => simp [put]
  | cons e es ih =>
    by_cases h : e.1 = label
    · simp [put, h]
    · have h' : label ≠ e.1 := fun e => h e.symm
      simp only [put, if_neg h, List.map_cons, ih, List.mem_cons, h', false_or]
      split <;> simp

theorem nodup_put {es : List (String × α)} (h : (es.map Prod.fst).Nodup) (label : String) (a : α) :
    ((put label a es).map Prod.fst).Nodup := by
  rw [labels_put]
  split
  · exact h
  · rename_i hl
    rw [List.nodup_append]
    refine ⟨h, by simp, ?_⟩
    intro x hx y hy
    simp only [List.mem_singleton] at hy
    subst hy
    exact fun e => hl (e ▸ hx)

theorem lookup_cons_of_ne {label first : String} (h : label ≠ first) (a : α)
    (es : List (String × α)) : ((first, a) :: es).lookup label = es.lookup label := by
  simp only [List.lookup_cons, beq_eq_false_iff_ne.2 h]

def empty : Labelled α := ⟨[], List.nodup_nil⟩

instance : Inhabited (Labelled α) := ⟨empty⟩

def insert (l : Labelled α) (label : String) (a : α) : Labelled α :=
  ⟨put label a l.entries, nodup_put l.nodup label a⟩

def ofList (es : List (String × α)) : Labelled α := es.foldl (fun l e => l.insert e.1 e.2) empty

def get? (l : Labelled α) (label : String) : Option α := l.entries.lookup label

def values (l : Labelled α) : List α := l.entries.map Prod.snd

end Labelled

end Payables
