/-!
# The first of each

`firstOfEach key` keeps the first element with each key, in order; `distinct` drops repetitions.
What is kept has the keys of the whole list, each of them once.
-/

namespace Payables

section

variable {α β : Type} [DecidableEq β] (key : α → β)

/-- Drops the elements whose key an earlier element has. -/
def firstOfEach : List α → List α
  | [] => []
  | a :: as => a :: (firstOfEach as).filter (key · ≠ key a)

theorem firstOfEach_sublist (as : List α) : (firstOfEach key as).Sublist as := by
  induction as with
  | nil => exact .slnil
  | cons a as ih => exact (List.filter_sublist.trans ih).cons_cons a

theorem mem_keys_firstOfEach (as : List α) (k : β) :
    k ∈ (firstOfEach key as).map key ↔ k ∈ as.map key := by
  induction as with
  | nil => rfl
  | cons a as ih =>
    simp only [firstOfEach, List.map_cons, List.mem_cons, ← ih]
    by_cases hk : k = key a
    · simp [hk]
    · simp only [hk, false_or, List.mem_map, List.mem_filter, decide_not, Bool.not_eq_eq_eq_not,
        Bool.not_true, decide_eq_false_iff_not]
      constructor
      · rintro ⟨b, ⟨hb, -⟩, rfl⟩
        exact ⟨b, hb, rfl⟩
      · rintro ⟨b, hb, rfl⟩
        exact ⟨b, ⟨hb, hk⟩, rfl⟩

/-- A search by key finds the same element. -/
theorem find?_firstOfEach (p : β → Bool) (as : List α) :
    (firstOfEach key as).find? (p ∘ key) = as.find? (p ∘ key) := by
  induction as with
  | nil => rfl
  | cons a as ih =>
    cases hp : p (key a) with
    | true => simp [firstOfEach, hp]
    | false =>
      have hrest : ((firstOfEach key as).filter (key · ≠ key a)).find? (p ∘ key) =
          (firstOfEach key as).find? (p ∘ key) := by
        rw [List.find?_filter]
        congr 1
        funext b
        by_cases hb : key b = key a <;> simp [hb, hp]
      rw [firstOfEach, List.find?_cons_of_neg (by simp [hp]), hrest, ih,
        List.find?_cons_of_neg (by simp [hp])]

theorem nodup_keys_firstOfEach (as : List α) : ((firstOfEach key as).map key).Nodup := by
  induction as with
  | nil => exact List.nodup_nil
  | cons a as ih =>
    refine List.nodup_cons.2 ⟨?_, (List.filter_sublist.map key).nodup ih⟩
    intro h
    obtain ⟨b, hb, he⟩ := List.mem_map.1 h
    simp [he] at hb

theorem firstOfEach_eq_self {as : List α} (h : (as.map key).Nodup) : firstOfEach key as = as := by
  induction as with
  | nil => rfl
  | cons a as ih =>
    obtain ⟨ha, has⟩ := List.nodup_cons.1 h
    rw [firstOfEach, ih has, List.filter_eq_self.2]
    intro b hb
    have hne : key b ≠ key a := fun he => ha (he ▸ List.mem_map_of_mem hb)
    simpa using hne

/-- With distinct keys a search by key finds whatever has the key. -/
theorem find?_key_eq_some_iff {as : List α} (h : (as.map key).Nodup) {k : β} {a : α} :
    as.find? (key · == k) = some a ↔ a ∈ as ∧ key a = k := by
  constructor
  · intro hfind
    exact ⟨List.mem_of_find?_eq_some hfind, by simpa using List.find?_some hfind⟩
  · rintro ⟨ha, rfl⟩
    induction as with
    | nil => simp at ha
    | cons b bs ih =>
      obtain ⟨hb, hbs⟩ := List.nodup_cons.1 h
      rcases List.mem_cons.1 ha with rfl | hmem
      · simp
      · have hne : key b ≠ key a := fun he => hb (he ▸ List.mem_map_of_mem hmem)
        rw [List.find?_cons_of_neg (by simpa using hne), ih hbs hmem]

/-- Keys may be left out before or after. -/
theorem firstOfEach_filter (p : β → Bool) (as : List α) :
    firstOfEach key (as.filter (p ∘ key)) = (firstOfEach key as).filter (p ∘ key) := by
  induction as with
  | nil => rfl
  | cons a as ih =>
    cases hp : p (key a) with
    | true =>
      rw [List.filter_cons_of_pos (by simpa using hp), firstOfEach, firstOfEach, ih,
        List.filter_cons_of_pos (by simpa using hp), List.filter_filter, List.filter_filter]
      simp only [Bool.and_comm]
    | false =>
      have hkept : ∀ b, (p ∘ key) b = true → key b ≠ key a := by
        rintro b hb he
        rw [Function.comp_apply, he, hp] at hb
        cases hb
      rw [List.filter_cons_of_neg (by simp [hp]), ih, firstOfEach,
        List.filter_cons_of_neg (by simp [hp]), List.filter_filter]
      refine List.filter_congr fun b _ => ?_
      cases hb : (p ∘ key) b with
      | true => simpa using hkept b hb
      | false => rfl

theorem mem_firstOfEach {as : List α} {a : α} :
    a ∈ firstOfEach key as ↔ as.find? (key · == key a) = some a := by
  have hfind := find?_firstOfEach key (· == key a) as
  simp only [Function.comp_def] at hfind
  rw [← hfind, find?_key_eq_some_iff key (nodup_keys_firstOfEach key as), and_iff_left rfl]

end

section

variable {α : Type} [DecidableEq α]

def distinct (as : List α) : List α := firstOfEach id as

theorem mem_distinct {as : List α} {a : α} : a ∈ distinct as ↔ a ∈ as := by
  simpa [distinct] using mem_keys_firstOfEach id as a

theorem nodup_distinct (as : List α) : (distinct as).Nodup := by
  simpa [distinct] using nodup_keys_firstOfEach id as

theorem distinct_concat (as : List α) (a : α) :
    distinct (as ++ [a]) = if a ∈ as then distinct as else distinct as ++ [a] := by
  induction as with
  | nil => rfl
  | cons b as ih =>
    have hcons (bs : List α) : distinct (b :: bs) = b :: (distinct bs).filter (· ≠ b) := rfl
    rw [List.cons_append, hcons, hcons, ih]
    by_cases hmem : a ∈ as
    · rw [if_pos hmem, if_pos (List.mem_cons_of_mem b hmem)]
    · rw [if_neg hmem, List.filter_append]
      by_cases hb : a = b
      · subst hb
        simp
      · simp [hb, hmem]

theorem distinct_filter (p : α → Bool) (as : List α) :
    distinct (as.filter p) = (distinct as).filter p := firstOfEach_filter id p as

end

end Payables
