import Payables.Classification
import Payables.Proofs.Similarity.Count
import Payables.Proofs.Text.Runs
import Payables.Proofs.Text.Trimming

/-!
# Keywords that decide

No keyword scores more than one, and a long one scores one just if it occurs in the text. Of the
kinds that a line with a credit can have, payments are tried first and credit notes next. So a text
with a word for payments makes such a line a payment, and else one with the word credit makes it a
credit note, whatever else the text holds (`kind_classify_of_credit`).
-/

namespace Payables

open Text

namespace Classifier

variable {c : Classifier} {l : Line} {b : Buckets} {kind : DocumentKind} {compact text : String}
  {keyword word : String} {words : List String} {hit : KeywordHit}

theorem wordScore_le {x : Binary64} (hsame : word = keyword → 1 ≤ x) (hstart : .ofRatio 9 10 ≤ x)
    (hsimilar : word ≠ keyword → similarity word keyword ≤ x) : c.wordScore word keyword ≤ x := by
  have hcap : ∀ s : Binary64, s ≤ x →
      (if keyword.length ≤ longestShort then s.lesser c.settings.shortSynonymCap else s) ≤ x := by
    intro s hs
    split
    · exact Binary64.le_trans (Binary64.lesser_le_left ..) hs
    · exact hs
  refine hcap _ ?_
  split_ifs with heq
  · exact hsame heq
  · exact hstart
  · exact hsimilar heq

theorem wordScore_le_one (c : Classifier) (word keyword : String) : c.wordScore word keyword ≤ 1 :=
  wordScore_le (fun _ => Binary64.le_refl 1) (by decide +kernel) fun _ => similarityOf_le_one ..

theorem wordScore_lt_one (hne : word ≠ keyword) (hlength : keyword.length ≤ 12) :
    c.wordScore word keyword < 1 := by
  have hle : c.wordScore word keyword ≤ .ofRatio 24 25 := by
    refine wordScore_le (fun heq => absurd heq hne) (by decide +kernel) fun _ => ?_
    exact similarityOf_le_of_ne (fun heq => hne (String.toList_injective heq)) hlength
  exact Binary64.lt_of_le_of_lt hle (by decide +kernel)

theorem eq_score_of_bestWord {score : String → Binary64} {best : Binary64 × String}
    (h : bestWord score words = some best) : best.2 ∈ words ∧ best.1 = score best.2 := by
  cases words with
  | nil => cases h
  | cons w ws =>
    obtain rfl := Option.some.inj h
    refine List.foldlRecOn ws _
      (motive := fun best : Binary64 × String => best.2 ∈ w :: ws ∧ best.1 = score best.2)
      ⟨List.mem_cons_self, rfl⟩ fun best hbest u hu => ?_
    split
    · exact ⟨List.mem_cons_of_mem w hu, rfl⟩
    · exact hbest

theorem keywordHit_of_contains (hlength : shortestContained ≤ (capitals keyword).length)
    (h : contains compact (capitals keyword) = true) :
    c.keywordHit compact words kind keyword = some ⟨kind, 1, keyword, none⟩ :=
  if_pos (by rw [Bool.and_eq_true, decide_eq_true_eq]; exact ⟨hlength, h⟩)

theorem keywordHit_eq_some (h : c.keywordHit compact words kind keyword = some hit) :
    hit.kind = kind ∧ (hit.score = 1 ∧ contains compact (capitals keyword) = true ∨
      ∃ w ∈ words, hit.score = c.wordScore w (capitals keyword)) := by
  rw [keywordHit] at h
  split at h
  · rename_i hcontains
    obtain rfl := Option.some.inj h
    rw [Bool.and_eq_true] at hcontains
    exact ⟨rfl, .inl ⟨rfl, hcontains.2⟩⟩
  · obtain ⟨⟨score, w⟩, hbest, rfl⟩ := Option.map_eq_some_iff.1 h
    obtain ⟨hw, hscore⟩ := eq_score_of_bestWord hbest
    exact ⟨rfl, .inr ⟨w, hw, hscore⟩⟩

theorem score_le_one (h : c.keywordHit compact words kind keyword = some hit) : hit.score ≤ 1 := by
  rcases (keywordHit_eq_some h).2 with ⟨hone, -⟩ | ⟨w, -, hscore⟩
  · rw [hone]
    exact Binary64.le_refl 1
  · rw [hscore]
    exact wordScore_le_one c w _

theorem infix_compactForm_of_mem_textWords (h : word ∈ textWords text) :
    word.toList <:+: (compactForm text).toList := by
  obtain ⟨r, hr, rfl⟩ := List.mem_map.1 h
  obtain ⟨hstands, hclass⟩ := infix_of_mem_runs hr
  rw [String.toList_ofList, compactForm, String.toList_ofList, ← List.filter_eq_self.2 hclass]
  exact (hstands.filter isAsciiAlphanumeric).map asciiUpper

theorem score_lt_one (h : c.keywordHit (compactForm text) (textWords text) kind keyword = some hit)
    (hlength : (capitals keyword).length ≤ 12)
    (hnot : ¬ (capitals keyword).toList <:+: (compactForm text).toList) : hit.score < 1 := by
  rcases (keywordHit_eq_some h).2 with ⟨-, hcontains⟩ | ⟨w, hw, hscore⟩
  · have hoccurs := contains_iff_infix.1 hcontains
    exact absurd hoccurs hnot
  · rw [hscore]
    refine wordScore_lt_one (fun heq => hnot ?_) hlength
    rw [← heq]
    exact infix_compactForm_of_mem_textWords hw

def keywordsOf (kind : DocumentKind) : List String := (keywords.lookup kind).getD []

theorem hitsAmong_singleton (c : Classifier) (text : String) (kind : DocumentKind) :
    c.hitsAmong text [kind] =
      (keywordsOf kind).filterMap (c.keywordHit (compactForm text) (textWords text) kind) := by
  have hkinds : keywords.filter ([kind].contains ·.1) =
      (keywords.lookup kind).toList.map (kind, ·) := by
    cases kind <;> rfl
  rw [hitsAmong, hkinds, keywordsOf]
  cases keywords.lookup kind with
  | none => rfl
  | some ks => exact List.append_nil _

theorem kind_eq_of_mem_hitsAmong (h : hit ∈ c.hitsAmong text [kind]) : hit.kind = kind := by
  rw [hitsAmong_singleton] at h
  obtain ⟨k, -, hk⟩ := List.mem_filterMap.1 h
  exact (keywordHit_eq_some hk).1

theorem score_le_one_of_mem_hitsAmong {kinds : List DocumentKind}
    (h : hit ∈ c.hitsAmong text kinds) : hit.score ≤ 1 := by
  obtain ⟨e, -, he⟩ := List.mem_flatMap.1 h
  obtain ⟨k, -, hk⟩ := List.mem_filterMap.1 he
  exact score_le_one hk

theorem exists_bestHit {kinds : List DocumentKind} (h : hit ∈ c.hitsAmong text kinds) :
    ∃ best, c.bestHit text kinds = some best ∧
      IsFirstBestOf KeywordHit.score (c.hitsAmong text kinds) best := by
  obtain ⟨first, hits, hhits⟩ := List.exists_cons_of_ne_nil (List.ne_nil_of_mem h)
  have hfirst := isFirstBestOf_foldl KeywordHit.score first hits
  rw [← hhits] at hfirst
  refine ⟨_, ?_, hfirst⟩
  rw [bestHit]
  split
  · rename_i hnil
    cases hnil.symm.trans hhits
  · rename_i hcons
    obtain ⟨rfl, rfl⟩ := List.cons.inj (hcons.symm.trans hhits)
    rfl

/-- A hit with a full score is not missed, and of those the first is chosen. -/
theorem exists_full_bestHit {kinds : List DocumentKind} {hits : List KeywordHit}
    (hhits : c.hitsAmong text kinds = hits) (h : hit ∈ hits) (hfull : hit.score = 1) :
    ∃ best, c.bestHit text kinds = some best ∧ 1 ≤ best.score ∧ best.score ≤ hit.score ∧
      IsFirstBestOf KeywordHit.score hits best := by
  subst hhits
  obtain ⟨best, hsome, hfirst⟩ := exists_bestHit h
  have hle := hfirst.le h
  refine ⟨best, hsome, hfull ▸ hle, ?_, hfirst⟩
  rw [hfull]
  exact score_le_one_of_mem_hitsAmong hfirst.mem

/-- A line with a credit is tried for a payment first and for a credit note next. -/
theorem hitsAmong_candidates (c : Classifier) (text : String) (hb : b.credit = true) :
    ∃ later, c.hitsAmong text (candidates b).1 =
      c.hitsAmong text [.payment] ++ (c.hitsAmong text [.creditNote] ++ later) := by
  have hkinds : ∀ debit, keywords.filter ((candidates ⟨debit, true⟩).1.contains ·.1) =
      keywords.filter ([.payment].contains ·.1) ++ (keywords.filter ([.creditNote].contains ·.1) ++
        keywords.filter ((if debit then [.invoice] else []).contains ·.1)) := by
    decide +kernel
  obtain ⟨debit, credit⟩ := b
  subst hb
  refine ⟨c.hitsAmong text (if debit then [.invoice] else []), ?_⟩
  simp only [hitsAmong, hkinds, List.flatMap_append]

/-- The words, in capitals, that tell a payment. -/
def paymentMarks : List String :=
  ["PAYMENT", "PAID", "RECEIPT", "REMITTANCE", "BANKTRANSFER", "DIRECTDEBIT", "DDPAYMENT"]

def Mentions (text mark : String) : Prop := mark.toList <:+: (compactForm text).toList

instance (text mark : String) : Decidable (Mentions text mark) :=
  inferInstanceAs (Decidable (_ <:+: _))

theorem exists_hit_of_mentions (c : Classifier) {mark : String}
    (hkeyword : keyword ∈ keywordsOf kind) (hcapitals : capitals keyword = mark)
    (hlength : shortestContained ≤ mark.length) (h : Mentions text mark) :
    ∃ hit ∈ c.hitsAmong text [kind], hit.score = 1 := by
  subst hcapitals
  have hcontains : contains (compactForm text) (capitals keyword) = true := contains_iff_infix.2 h
  refine ⟨⟨kind, 1, keyword, none⟩, ?_, rfl⟩
  rw [hitsAmong_singleton]
  exact List.mem_filterMap.2 ⟨keyword, hkeyword, keywordHit_of_contains hlength hcontains⟩

/-- Every keyword for payments has a word in it that tells a payment. -/
theorem score_lt_one_of_not_mentions (h : ¬ ∃ mark ∈ paymentMarks, Mentions text mark)
    (hhit : hit ∈ c.hitsAmong text [.payment]) : hit.score < 1 := by
  have hmarks : ∀ k ∈ keywordsOf .payment, (capitals k).length ≤ 12 ∧
      ∃ mark ∈ paymentMarks, mark.toList <:+: (capitals k).toList := by
    decide +kernel
  rw [hitsAmong_singleton] at hhit
  obtain ⟨k, hk, hscore⟩ := List.mem_filterMap.1 hhit
  obtain ⟨hlength, mark, hmark, hstands⟩ := hmarks k hk
  exact score_lt_one hscore hlength fun hoccurs => h ⟨mark, hmark, hstands.trans hoccurs⟩

theorem kind_classify_of_bestHit
    (h : c.bestHit (l.number ++ " " ++ l.reference) (candidates (c.buckets l)).1 = some hit)
    (hone : 1 ≤ hit.score) (hconfidence : c.settings.confidence hit.kind ≤ 1) :
    (c.classify l).kind = hit.kind := by
  have hsure : 0 < hit.score ∧ c.settings.confidence hit.kind ≤ hit.score :=
    ⟨Binary64.lt_of_lt_of_le (by decide +kernel) hone, Binary64.le_trans hconfidence hone⟩
  rw [classify]
  generalize candidates (c.buckets l) = kinds at h
  obtain ⟨kinds, default⟩ := kinds
  simp only [h, if_pos hsure]

theorem kind_eq_payment_of_mentions (hpayment : c.settings.confidence .payment ≤ 1)
    (hcredit : (c.buckets l).credit = true)
    (h : ∃ mark ∈ paymentMarks, Mentions (l.number ++ " " ++ l.reference) mark) :
    (c.classify l).kind = .payment := by
  have hmarks : ∀ mark ∈ paymentMarks, shortestContained ≤ mark.length ∧
      ∃ k ∈ keywordsOf .payment, capitals k = mark := by
    decide +kernel
  obtain ⟨later, hhits⟩ := hitsAmong_candidates c (l.number ++ " " ++ l.reference) hcredit
  obtain ⟨mark, hmark, hmentions⟩ := h
  obtain ⟨hlength, k, hk, hcapitals⟩ := hmarks mark hmark
  obtain ⟨full, hmem, hfull⟩ := exists_hit_of_mentions c hk hcapitals hlength hmentions
  obtain ⟨best, hsome, hone, hle, hfirst⟩ :=
    exists_full_bestHit hhits (List.mem_append_left _ hmem) hfull
  have hkind : best.kind = .payment := kind_eq_of_mem_hitsAmong (hfirst.mem_left hmem hle)
  rw [kind_classify_of_bestHit hsome hone (hkind ▸ hpayment), hkind]

theorem kind_eq_creditNote_of_mentions (hcreditNote : c.settings.confidence .creditNote ≤ 1)
    (hcredit : (c.buckets l).credit = true)
    (hnone : ¬ ∃ mark ∈ paymentMarks, Mentions (l.number ++ " " ++ l.reference) mark)
    (h : Mentions (l.number ++ " " ++ l.reference) "CREDIT") :
    (c.classify l).kind = .creditNote := by
  have hk : "credit" ∈ keywordsOf .creditNote := by decide +kernel
  obtain ⟨later, hhits⟩ := hitsAmong_candidates c (l.number ++ " " ++ l.reference) hcredit
  obtain ⟨full, hmem, hfull⟩ :=
    exists_hit_of_mentions c hk (by decide +kernel) (by decide +kernel) h
  rw [← List.append_assoc] at hhits
  obtain ⟨best, hsome, hone, hle, hfirst⟩ :=
    exists_full_bestHit hhits (List.mem_append_left _ (List.mem_append_right _ hmem)) hfull
  have hkind : best.kind = .creditNote := by
    rcases List.mem_append.1 (hfirst.mem_left (List.mem_append_right _ hmem) hle) with hpay | hnote
    · exact absurd (score_lt_one_of_not_mentions hnone hpay) (Binary64.not_lt_of_le hone)
    · exact kind_eq_of_mem_hitsAmong hnote
  rw [kind_classify_of_bestHit hsome hone (hkind ▸ hcreditNote), hkind]

/-- A line with a credit is a payment if its number and reference mention one, and else a credit
note if they mention a credit, as long as a full score is enough for either. -/
theorem kind_classify_of_credit (c : Classifier) (l : Line)
    (hpayment : c.settings.confidence .payment ≤ 1)
    (hcreditNote : c.settings.confidence .creditNote ≤ 1) (hcredit : (c.buckets l).credit = true) :
    ((∃ mark ∈ paymentMarks, Mentions (l.number ++ " " ++ l.reference) mark) →
        (c.classify l).kind = .payment) ∧
      ((¬ ∃ mark ∈ paymentMarks, Mentions (l.number ++ " " ++ l.reference) mark) →
        Mentions (l.number ++ " " ++ l.reference) "CREDIT" →
          (c.classify l).kind = .creditNote) :=
  ⟨kind_eq_payment_of_mentions hpayment hcredit, kind_eq_creditNote_of_mentions hcreditNote hcredit⟩

def twoAmounts (number : String) : Line :=
  { Line.ofOrdinal "2024-03" 1 with number, cells := .ofList [("Debit", "3"), ("Credit", "5")] }

/-- The word for invoices counts as much but is tried last. -/
theorem kind_classify_twoAmounts :
    let c : Classifier := .ofLayout { dateFormat? := some "DD/MM/YYYY", number? := some "No" } {}
    (c.settings.confidence .payment ≤ 1 ∧ c.settings.confidence .creditNote ≤ 1) ∧
      (c.buckets (twoAmounts "Invoice 7, re-paid")).credit = true ∧
      (c.classify (twoAmounts "Invoice 7, re-paid")).kind = .payment ∧
      (c.buckets (twoAmounts "Invoice 7, credited")).credit = true ∧
      (c.classify (twoAmounts "Invoice 7, credited")).kind = .creditNote := by
  intro c
  have hpayment : c.settings.confidence .payment ≤ 1 := by decide +kernel
  have hcreditNote : c.settings.confidence .creditNote ≤ 1 := by decide +kernel
  have hpaid : (c.buckets (twoAmounts "Invoice 7, re-paid")).credit = true := by decide +kernel
  have hcredited : (c.buckets (twoAmounts "Invoice 7, credited")).credit = true := by
    decide +kernel
  refine ⟨⟨hpayment, hcreditNote⟩, hpaid, ?_, hcredited, ?_⟩
  · exact (kind_classify_of_credit c _ hpayment hcreditNote hpaid).1 (by decide +kernel)
  · exact (kind_classify_of_credit c _ hpayment hcreditNote hcredited).2 (by decide +kernel)
      (by decide +kernel)

end Classifier

end Payables
