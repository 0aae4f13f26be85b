import Payables.Proofs.Text.LowerCase
import Payables.Proofs.Text.Runs
import Payables.Screening

/-!
# The words that screening sees

Which rule a text falls under depends on its words alone, and not on their order: a text is short
by its number of words, and it holds a digit iff one of its words does, since lower case neither
makes digits nor loses any. The rules of several words come first and apply to every text, so a text
that has the words of one of them falls under one of them (`keywordHit_seesWords`).
-/

namespace Payables.Screening

open Text

variable {settings : ScreeningSettings} {text : String} {words words' : List String}
  {rule : KeywordRule}

/-- The first rule that a list of words falls under. -/
def firstRule? (settings : ScreeningSettings) (words : List String) : Option KeywordRule :=
  rule? settings words (words.any (·.toList.any Char.isDigit))

theorem words_ne_nil : ∀ r ∈ rules, r.words ≠ [] := by decide

theorem eq_of_label_eq : ∀ r ∈ rules, ∀ r' ∈ rules, r.label = r'.label → r = r' := by
  decide +kernel

theorem scope_eq_anyText : ∀ r ∈ rules, 2 ≤ r.words.length → r.scope = .anyText := by decide

theorem pairwise_rules :
    rules.Pairwise fun r r' => 2 ≤ r'.words.length → 2 ≤ r.words.length := by
  decide

theorem any_isDigit_keywords (text : String) :
    (keywords text).any (·.toList.any Char.isDigit) = text.toList.any Char.isDigit := by
  rw [Bool.eq_iff_iff, List.any_eq_true]
  simp only [List.any_eq_true]
  constructor
  · rintro ⟨w, hw, d, hd, hdigit⟩
    obtain ⟨r, hr, rfl⟩ := List.mem_map.1 hw
    rw [String.toList_ofList] at hd
    have hlower : d ∈ lower text.toList := (infix_of_mem_runs hr).1.subset hd
    exact ⟨d, (mem_lower_iff_of_isDigit hdigit).1 hlower, hdigit⟩
  · rintro ⟨d, hd, hdigit⟩
    have halnum : isAsciiAlphanumeric d = true := by
      rw [isAsciiAlphanumeric, Char.isAlphanum, hdigit, Bool.or_true]
    have hruns : d ∈ (runs isAsciiAlphanumeric (lower text.toList)).flatten := by
      rw [flatten_runs, List.mem_filter]
      exact ⟨(mem_lower_iff_of_isDigit hdigit).2 hd, halnum⟩
    obtain ⟨r, hr, hdr⟩ := List.mem_flatten.1 hruns
    exact ⟨String.ofList r, List.mem_map_of_mem hr, d, by simpa using hdr, hdigit⟩

theorem firstRule?_nil (settings : ScreeningSettings) : firstRule? settings [] = none := by
  rw [firstRule?, rule?, List.find?_eq_none]
  intro r hr hfalls
  obtain ⟨w, ws, hwords⟩ := List.exists_cons_of_ne_nil (words_ne_nil r hr)
  simp [hwords] at hfalls

theorem keywordHit_eq (settings : ScreeningSettings) (text : String) :
    keywordHit settings text = (firstRule? settings (keywords text)).map (·.label) := by
  rw [keywordHit]
  split
  · rename_i hnone
    rw [hnone, firstRule?_nil]
    rfl
  · rw [firstRule?, any_isDigit_keywords]

theorem firstRule?_perm (h : words.Perm words') :
    firstRule? settings words = firstRule? settings words' := by
  have hcontains : words.contains = words'.contains := funext fun _ => h.contains_eq
  rw [firstRule?, firstRule?, rule?, rule?, hcontains, h.length_eq, h.any_eq]

theorem mem_of_firstRule? (h : firstRule? settings words = some rule) :
    rule ∈ rules ∧ ∀ w ∈ rule.words, w ∈ words := by
  rw [firstRule?, rule?] at h
  refine ⟨List.mem_of_find?_eq_some h, ?_⟩
  have hfalls := List.find?_some h
  rw [Bool.and_eq_true, List.all_eq_true] at hfalls
  exact fun w hw => List.contains_iff_mem.1 (hfalls.1 w hw)

/-- Words that have all words of such a rule fall under one. -/
theorem exists_firstRule? (settings : ScreeningSettings) (hrule : rule ∈ rules)
    (hseveral : 2 ≤ rule.words.length) (h : ∀ w ∈ rule.words, w ∈ words) :
    ∃ r, firstRule? settings words = some r ∧ 2 ≤ r.words.length := by
  have hfalls : (rule.words.all words.contains && inScope (words.length ≤ settings.shortTextWords)
      (words.any (·.toList.any Char.isDigit)) rule.scope) = true := by
    rw [scope_eq_anyText rule hrule hseveral, inScope, Bool.and_true, List.all_eq_true]
    exact fun w hw => List.contains_iff_mem.2 (h w hw)
  cases hfirst : firstRule? settings words with
  | none => exact absurd hfalls (List.find?_eq_none.1 hfirst rule hrule)
  | some r =>
    refine ⟨r, rfl, ?_⟩
    obtain ⟨-, earlier, later, hsplit, hearlier⟩ := List.find?_eq_some_iff_append.1 hfirst
    have horder := pairwise_rules
    rw [hsplit] at hrule horder
    rcases List.mem_append.1 hrule with hbefore | hfrom
    · have hnot := hearlier rule hbefore
      rw [hfalls] at hnot
      cases hnot
    · rcases List.mem_cons.1 hfrom with rfl | hafter
      · exact hseveral
      · exact (List.pairwise_cons.1 (List.pairwise_append.1 horder).2.1).1 rule hafter hseveral

/-- Texts with the same words, each as often, hit the same rule, whatever else is in them. If a text
hits a rule of several words, it has these words, and every text that has them hits such a rule. -/
theorem keywordHit_seesWords (settings : ScreeningSettings) :
    (∀ text text' : String, (keywords text).Perm (keywords text') →
      keywordHit settings text = keywordHit settings text') ∧
    ∀ (text : String), ∀ rule ∈ rules, keywordHit settings text = some rule.label →
      2 ≤ rule.words.length → (∀ w ∈ rule.words, w ∈ keywords text) ∧
        ∀ text' : String, (∀ w ∈ rule.words, w ∈ keywords text') →
          ∃ rule' ∈ rules, 2 ≤ rule'.words.length ∧
            keywordHit settings text' = some rule'.label := by
  constructor
  · intro text text' hperm
    rw [keywordHit_eq, keywordHit_eq, firstRule?_perm hperm]
  · intro text rule hrule hhit hseveral
    constructor
    · rw [keywordHit_eq] at hhit
      obtain ⟨r, hfirst, hlabel⟩ := Option.map_eq_some_iff.1 hhit
      obtain ⟨hr, hwords⟩ := mem_of_firstRule? hfirst
      rwa [← eq_of_label_eq r hr rule hrule hlabel]
    · intro text' hwords
      obtain ⟨r, hfirst, hseveral'⟩ := exists_firstRule? settings hrule hseveral hwords
      refine ⟨r, (mem_of_firstRule? hfirst).1, hseveral', ?_⟩
      rw [keywordHit_eq, hfirst, Option.map_some]

/-- The Kelvin sign has the letter `k` as its lower case. Where `forward` stands too, another rule
comes first. -/
theorem keywordHit_seesWords_closing :
    (keywords "Closing-Balance (BAN\u212A)").Perm (keywords "bank: BALANCE, closing") ∧
      keywordHit {} "Closing-Balance (BAN\u212A)" = keywordHit {} "bank: BALANCE, closing" ∧
      keywordHit {} "bank: BALANCE, closing" = some "closing balance" ∧
      ∃ rule ∈ rules, 2 ≤ rule.words.length ∧
        keywordHit {} "Balance forward 2024 (closing of the year)" = some rule.label := by
  have hperm : (keywords "Closing-Balance (BAN\u212A)").Perm (keywords "bank: BALANCE, closing") :=
    by decide +kernel
  have hhit : keywordHit {} "bank: BALANCE, closing" = some "closing balance" := by decide +kernel
  have hrule : ⟨["closing", "balance"], "closing balance", .anyText⟩ ∈ rules := by decide +kernel
  obtain ⟨hsame, hrules⟩ := keywordHit_seesWords {}
  exact ⟨hperm, hsame _ _ hperm, hhit,
    (hrules _ _ hrule hhit (by decide)).2 _ (by decide +kernel)⟩

end Payables.Screening
