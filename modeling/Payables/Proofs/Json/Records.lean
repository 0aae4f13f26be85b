import Payables.Ledger
import Payables.Processing
import Payables.Proofs.Amount.Text
import Payables.Proofs.Calendar.IsoText
import Payables.Proofs.Json.Forms
import Payables.Proofs.Line.Same
import Payables.Table.Basic

/-!
# Records that are read back

Each record is written as an object and read back field by field. The records of which no part is an
amount or a set of labelled values have an exact form. Lines, rows and what holds them are read back
up to the order of labels and the spelling of amounts.
-/

namespace Payables

open Json

instance : ExactForm EntryKind where
  ofJson?_of_reordered k j h := ofWord_of_reordered h (by cases k <;> rfl)
  toJson_ne_null k h := by cases h

instance : ExactForm DocumentKind where
  ofJson?_of_reordered k j h := ofWord_of_reordered h (by cases k <;> rfl)
  toJson_ne_null k h := by cases h

instance : ExactForm Side where
  ofJson?_of_reordered s j h := ofWord_of_reordered h (by cases s <;> rfl)
  toJson_ne_null s h := by cases h

instance : ExactForm Flag where
  ofJson?_of_reordered f j h := ofWord_of_reordered h (by cases f <;> rfl)
  toJson_ne_null f h := by cases h

theorem FlagSet.ofList_toList (s : FlagSet) : ofList s.toList = s := by
  rcases s with ⟨_ | _, _ | _, _ | _⟩ <;> rfl

instance : ExactForm FlagSet where
  ofJson?_of_reordered s j h := by
    have hread : (ofJson? j : Option (List Flag)) = some s.toList :=
      ExactForm.ofJson?_of_reordered s.toList j h
    exact (congrArg (Option.map FlagSet.ofList) hread).trans (congrArg some s.ofList_toList)
  toJson_ne_null s h := by cases h

instance : ExactForm Date where
  ofJson?_of_reordered d j h := by
    rw [Reordered.eq_string h]
    exact d.ofText?_text
  toJson_ne_null d h := by cases h

/-- An amount is read back with its value, whatever the scale it is read with. -/
theorem readsBack_amount : ReadsBack fun a b : Amount => b.value = a.value := by
  intro a j h
  rw [Reordered.eq_string h]
  exact ⟨a.spelled, a.ofText?_text, a.value_spelled⟩

instance : ExactForm LedgerEntry where
  ofJson?_of_reordered d j h := by
    obtain ⟨f, hf, hhas⟩ := h.exists_fields? (by simp) ["id", "number", "kind"]
    have hid : f.required "id" = some d.id := hhas.required rfl
    have hnumber : f.required "number" = some d.number := hhas.required rfl
    have hkind : f.required "kind" = some d.kind := hhas.required rfl
    simp only [ofJson?, hf, hid, hnumber, hkind, Option.bind_eq_bind, Option.bind_some]
    rfl
  toJson_ne_null d h := by cases h

instance : ExactForm Table where
  ofJson?_of_reordered t j h := by
    obtain ⟨f, hf, hhas⟩ := h.exists_fields? (by simp) ["page", "rows"]
    have hpage : f.required "page" = some t.page := hhas.required rfl
    have hrows : f.required "rows" = some t.rows := hhas.required rfl
    simp only [ofJson?, hf, hpage, hrows, Option.bind_eq_bind, Option.bind_some]
    rfl
  toJson_ne_null t h := by cases h

instance : ExactForm AmountColumn where
  ofJson?_of_reordered c j h := by
    obtain ⟨f, hf, hhas⟩ := h.exists_fields? (by simp) ["column", "role"]
    have hlabel : f.required "column" = some c.label := hhas.required rfl
    have hside : f.withDefault "role" none = some c.side? := hhas.withDefault_option rfl none
    simp only [ofJson?, hf, hlabel, hside, Option.bind_eq_bind, Option.bind_some]
    rfl
  toJson_ne_null c h := by cases h

instance : ExactForm Layout where
  ofJson?_of_reordered l j h := by
    obtain ⟨f, hf, hhas⟩ := h.exists_fields? (by simp) ["number_column", "date_column",
      "due_date_column", "reference_column", "total_columns", "date_format", "decimal_separator",
      "thousands_separator"]
    have hnumber : f.withDefault "number_column" none = some l.number? :=
      hhas.withDefault_option rfl none
    have hdate : f.withDefault "date_column" none = some l.date? :=
      hhas.withDefault_option rfl none
    have hdueDate : f.withDefault "due_date_column" none = some l.dueDate? :=
      hhas.withDefault_option rfl none
    have hreference : f.withDefault "reference_column" none = some l.reference? :=
      hhas.withDefault_option rfl none
    have hamounts : f.withDefault "total_columns" [] = some l.amounts := hhas.withDefault rfl []
    have hdateFormat : f.withDefault "date_format" none = some l.dateFormat? :=
      hhas.withDefault_option rfl none
    have hdecimal : f.withDefault "decimal_separator" "." = some l.decimalMark :=
      hhas.withDefault rfl "."
    have hgroup : f.withDefault "thousands_separator" "," = some l.groupMark :=
      hhas.withDefault rfl ","
    simp only [ofJson?, hf, hnumber, hdate, hdueDate, hreference, hamounts, hdateFormat, hdecimal,
      hgroup, Option.bind_eq_bind, Option.bind_some]
    rfl
  toJson_ne_null l h := by cases h

instance : ExactForm Evidence where
  ofJson?_of_reordered e j h := by
    obtain ⟨field, issue, keyword?, value?⟩ := e
    obtain ⟨f, hf, hhas⟩ := h.exists_fields? (by cases keyword? <;> cases value? <;> simp)
      ["field", "issue", "keyword", "value"]
    have hfield : f.required "field" = some field := hhas.required rfl
    have hissue : f.required "issue" = some issue := hhas.required rfl
    have hkeyword : f.withDefault "keyword" none = some keyword? :=
      hhas.withDefault_none (by cases keyword? <;> cases value? <;> rfl)
    have hvalue : f.withDefault "value" none = some value? :=
      hhas.withDefault_none (by cases keyword? <;> cases value? <;> rfl)
    simp only [ofJson?, hf, hfield, hissue, hkeyword, hvalue, Option.bind_eq_bind, Option.bind_some]
    rfl
  toJson_ne_null e h := by cases h

instance : ExactForm FlaggedLine where
  ofJson?_of_reordered l j h := by
    obtain ⟨f, hf, hhas⟩ := h.exists_fields? (by simp) ["item_id", "ordinal", "issues"]
    have hid : f.required "item_id" = some l.id := hhas.required rfl
    have hordinal : f.required "ordinal" = some l.ordinal := hhas.required rfl
    have hissues : f.required "issues" = some l.issues := hhas.required rfl
    simp only [ofJson?, hf, hid, hordinal, hissues, Option.bind_eq_bind, Option.bind_some]
    rfl
  toJson_ne_null l h := by cases h

instance : ExactForm ScreeningSummary where
  ofJson?_of_reordered s j h := by
    obtain ⟨f, hf, hhas⟩ := h.exists_fields? (by simp) ["total", "flagged", "rules",
      "flagged_items"]
    have htotal : f.required "total" = some s.total := hhas.required rfl
    have hflagged : f.required "flagged" = some s.flagged := hhas.required rfl
    have hissues : f.required "rules" = some s.issues := hhas.required rfl
    have hlines : f.required "flagged_items" = some s.lines := hhas.required rfl
    simp only [ofJson?, hf, htotal, hflagged, hissues, hlines, Option.bind_eq_bind,
      Option.bind_some]
    rfl
  toJson_ne_null s h := by cases h

theorem Mismatch.ofJson?_of_shows {m : Mismatch} {ps : List (String × Json)}
    (h : Shows m.members ps) : ofJson? (.object ps) = some m := by
  obtain ⟨f, hf, hhas⟩ := h.exists_fields? ["checked", "found", "unique_references", "missing",
    "source_only"]
  have hchecked : f.required "checked" = some m.checked := hhas.required rfl
  have hfound : f.required "found" = some m.found := hhas.required rfl
  have hunique : f.required "unique_references" = some m.uniqueReferences := hhas.required rfl
  have hmissing : f.required "missing" = some m.missing := hhas.required rfl
  have hsourceOnly : f.required "source_only" = some m.sourceOnly := hhas.required rfl
  simp only [ofJson?, hf, hchecked, hfound, hunique, hmissing, hsourceOnly, Option.bind_eq_bind,
    Option.bind_some]
  rfl

/-- The status is found and taken out from among the members, wherever it stands. -/
theorem CheckOutcome.exists_status? {ms : List (String × Json)} {word : String} {j : Json}
    (h : Reordered (.object (("status", .string word) :: ms)) j)
    (hms : ((("status", Json.string word) :: ms).map Prod.fst).Nodup) :
    ∃ ps, status? j = some (word, .object ps) ∧ Shows ms ps := by
  obtain ⟨ps, rfl, hshows⟩ := h.shows hms
  obtain ⟨hstatus, -⟩ := List.nodup_cons.1 hms
  obtain ⟨y, hy, hword⟩ := hshows.lookup_some "status" (.string word) rfl
  obtain rfl := hword.eq_string
  have hfilter : ps.filter (·.1 == "status") = [("status", .string word)] :=
    filter_label_eq_singleton hshows.nodup (mem_of_lookup_eq_some hy)
  refine ⟨ps.filter (·.1 != "status"), ?_, ?_, fun name x hx => ?_, fun name hnone => ?_⟩
  · simp only [status?, hfilter]
  · exact (List.filter_sublist.map Prod.fst).nodup hshows.nodup
  · have hne : name ≠ "status" := by
      rintro rfl
      exact hstatus (List.mem_map.2 ⟨_, mem_of_lookup_eq_some hx, rfl⟩)
    rw [lookup_filter_ne hne]
    exact hshows.lookup_some name x (by rwa [Labelled.lookup_cons_of_ne hne])
  · by_cases hne : name = "status"
    · rw [lookup_eq_none_iff_notMem]
      simp [hne]
    · rw [lookup_filter_ne hne]
      exact hshows.lookup_none name (by rwa [Labelled.lookup_cons_of_ne hne])

instance : ExactForm CheckOutcome where
  ofJson?_of_reordered o j h := by
    cases o with
    | skipped =>
      obtain ⟨ps, hstatus, -⟩ := CheckOutcome.exists_status? h (by simp)
      simp only [ofJson?, hstatus, Option.bind_eq_bind, Option.bind_some]
      rfl
    | passed checked candidates =>
      obtain ⟨ps, hstatus, hshows⟩ := CheckOutcome.exists_status? h (by simp)
      obtain ⟨f, hf, hhas⟩ := hshows.exists_fields? ["checked", "source_candidates"]
      have hchecked : f.required "checked" = some checked := hhas.required rfl
      have hcandidates : f.required "source_candidates" = some candidates := hhas.required rfl
      simp only [ofJson?, hstatus, Option.bind_eq_bind, Option.bind_some]
      simp only [CheckOutcome.ofStatus?, hf, hchecked, hcandidates, Option.bind_eq_bind,
        Option.bind_some]
      rfl
    | mismatch m =>
      obtain ⟨ps, hstatus, hshows⟩ := CheckOutcome.exists_status? h (by simp [Mismatch.members])
      have hread := Mismatch.ofJson?_of_shows hshows
      simp only [ofJson?, hstatus, Option.bind_eq_bind, Option.bind_some]
      exact congrArg (Option.map CheckOutcome.mismatch) hread
  toJson_ne_null o h := by cases o <;> cases h

structure Row.Same (a b : Row) : Prop where
  ordinal : b.ordinal = a.ordinal
  cells : ∀ header, b.cells.get? header = a.cells.get? header

structure Merge.Same (a b : Merge) : Prop where
  eq_but : b = { a with lines := b.lines }
  lines : List.Forall₂ Line.Same a.lines b.lines

structure Extraction.Same (a b : Extraction) : Prop where
  eq_but : b = { a with rows := b.rows }
  rows : List.Forall₂ Row.Same a.rows b.rows

theorem map_eq_of_rel {α β : Type} {f : α → β} {a? b? : Option α}
    (h : Option.Rel (fun a b => f b = f a) a? b?) : a?.map f = b?.map f := by
  cases h with
  | none => rfl
  | some h => exact congrArg some h.symm

theorem exists_cells {f : Fields} {ms : List (String × Json)} (h : f.Has ms) (name : String)
    (cells : Labelled String) (hcells : ms.lookup name = some (toJson cells)) :
    ∃ cells' : Labelled String, f.required name = some cells' ∧
      ∀ header, cells'.get? header = cells.get? header := by
  obtain ⟨cells', hread, hagree⟩ := h.exists_required name (readsBack_labelled readsBack_eq) hcells
  exact ⟨cells', hread, fun header => (eq_of_rel_eq (hagree header)).symm⟩

theorem readsBack_row : ReadsBack Row.Same := by
  intro r j h
  obtain ⟨f, hf, hhas⟩ := h.exists_fields? (by simp) ["ordinal", "cells"]
  have hordinal : f.required "ordinal" = some r.ordinal := hhas.required rfl
  obtain ⟨cells, hcells, hsame⟩ := exists_cells hhas "cells" r.cells rfl
  refine ⟨⟨r.ordinal, cells⟩, ?_, rfl, hsame⟩
  simp only [ofJson?, hf, hordinal, hcells, Option.bind_eq_bind, Option.bind_some]
  rfl

theorem readsBack_line : ReadsBack Line.Same := by
  intro l j h
  obtain ⟨f, hf, hhas⟩ := h.exists_fields? (by simp) ["item_id", "statement_id", "ordinal", "date",
    "due_date", "number", "reference", "document_type", "manual_document_type", "total", "raw",
    "flags", "flag_details", "completed"]
  have hid : f.required "item_id" = some l.id := hhas.required rfl
  have hstatement : f.required "statement_id" = some l.statement := hhas.required rfl
  have hordinal : f.required "ordinal" = some l.ordinal := hhas.required rfl
  have hdate : f.optional "date" = some l.date? := hhas.optional rfl
  have hdueDate : f.optional "due_date" = some l.dueDate? := hhas.optional rfl
  have hnumber : f.required "number" = some l.number := hhas.required rfl
  have hreference : f.required "reference" = some l.reference := hhas.required rfl
  have hkind : f.required "document_type" = some l.kind := hhas.required rfl
  have hmanualKind : f.withDefault "manual_document_type" none = some l.manualKind? :=
    hhas.withDefault_option rfl none
  have hflags : f.required "flags" = some l.flags := hhas.required rfl
  have hevidence : f.required "flag_details" = some l.evidence := hhas.required rfl
  have hcompleted : f.required "completed" = some l.completed := hhas.required rfl
  obtain ⟨amounts, hamounts, hvalues⟩ :=
    hhas.exists_required "total" (readsBack_labelled readsBack_amount) (a := l.amounts) rfl
  obtain ⟨cells, hcells, hsame⟩ := exists_cells hhas "raw" l.cells rfl
  refine ⟨{ l with amounts, cells }, ?_, rfl, fun label => ?_, hsame⟩
  · simp only [ofJson?, hf]
    -- rewritten one by one: simplifying under so many binds takes too many steps
    rw [Option.bind_eq_bind, Option.bind_some, hid, hstatement, hordinal, hdate, hdueDate, hnumber,
      hreference, hkind, hmanualKind, hamounts, hcells, hflags, hevidence, hcompleted]
    rfl
  · exact (map_eq_of_rel (hvalues label)).symm

theorem readsBack_merge : ReadsBack Merge.Same := by
  intro m j h
  obtain ⟨f, hf, hhas⟩ := h.exists_fields? (by simp) ["items", "inserted", "updated", "removed",
    "earliest_item_date", "latest_item_date"]
  have hinserted : f.required "inserted" = some m.inserted := hhas.required rfl
  have hupdated : f.required "updated" = some m.updated := hhas.required rfl
  have hremoved : f.required "removed" = some m.removed := hhas.required rfl
  have hearliest : f.optional "earliest_item_date" = some m.earliest? := hhas.optional rfl
  have hlatest : f.optional "latest_item_date" = some m.latest? := hhas.optional rfl
  obtain ⟨lines, hlines, hsame⟩ :=
    hhas.exists_required "items" (readsBack_list readsBack_line) (a := m.lines) rfl
  refine ⟨{ m with lines }, ?_, rfl, hsame⟩
  simp only [ofJson?, hf, hinserted, hupdated, hremoved, hearliest, hlatest, hlines,
    Option.bind_eq_bind, Option.bind_some]
  rfl

theorem readsBack_extraction : ReadsBack Extraction.Same := by
  intro e j h
  obtain ⟨f, hf, hhas⟩ := h.exists_fields? (by simp) ["tenant_id", "contact_id", "statement_id",
    "job_id", "config", "rows", "source_text"]
  have htenant : f.required "tenant_id" = some e.tenant := hhas.required rfl
  have hcontact : f.required "contact_id" = some e.contact := hhas.required rfl
  have hstatement : f.required "statement_id" = some e.statement := hhas.required rfl
  have hjob : f.optional "job_id" = some e.job? := hhas.optional rfl
  have hlayout : f.required "config" = some e.layout := hhas.required rfl
  have htext : f.optional "source_text" = some e.text? := hhas.optional rfl
  obtain ⟨rows, hrows, hsame⟩ :=
    hhas.exists_required "rows" (readsBack_list readsBack_row) (a := e.rows) rfl
  refine ⟨{ e with rows }, ?_, rfl, hsame⟩
  simp only [ofJson?, hf, htenant, hcontact, hstatement, hjob, hlayout, hrows, htext,
    Option.bind_eq_bind, Option.bind_some]
  rfl

end Payables
