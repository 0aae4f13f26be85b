import Mathlib.Data.List.Nodup
import Mathlib.Data.String.Basic
import Payables.Line.Basic

/-!
# Flags and the evidence for them

Raising a flag writes to two places of a line, its flags and its evidence. Both only grow, and what
is noted already is not noted again. A line is *documented* if the two agree: there is evidence for
the flags that are raised and for no others, and none of it is noted twice. Every flag that is
raised leaves a documented line documented.
-/

namespace Payables

theorem Flag.code_inj {f g : Flag} : f.code = g.code ↔ f = g := by
  cases f <;> cases g <;> decide

theorem FlagSet.has_insert_iff {s : FlagSet} {f g : Flag} :
    (s.insert f).has g = true ↔ f = g ∨ s.has g = true := by
  cases f <;> cases g <;> simp [insert, has]

theorem FlagSet.insert_eq_self {s : FlagSet} {f : Flag} (h : s.has f = true) : s.insert f = s := by
  obtain ⟨_, _, _⟩ := s
  cases f <;> cases h <;> rfl

theorem FlagSet.eq_of_has_iff {s t : FlagSet} (h : ∀ f, s.has f = true ↔ t.has f = true) :
    s = t := by
  cases s
  cases t
  rw [FlagSet.mk.injEq]
  exact ⟨Bool.eq_iff_iff.2 (h .invalidDate), Bool.eq_iff_iff.2 (h .missingNumber),
    Bool.eq_iff_iff.2 (h .outlier)⟩

namespace Line

variable {l l' l'' : Line} {f g : Flag} {e : Evidence} {known : List Evidence}

theorem noteOnce_of_mem (h : e ∈ known) : noteOnce e known = known :=
  if_pos (List.contains_iff_mem.2 h)

theorem prefix_noteOnce (e : Evidence) (known : List Evidence) : known <+: noteOnce e known := by
  unfold noteOnce
  split
  · exact List.prefix_refl known
  · exact List.prefix_append known [e]

theorem mem_noteOnce_self (e : Evidence) (known : List Evidence) : e ∈ noteOnce e known := by
  unfold noteOnce
  split
  · rename_i hmem
    exact List.contains_iff_mem.1 hmem
  · exact List.mem_append_right known (List.mem_singleton_self e)

theorem noteOnce_ne_nil (e : Evidence) (known : List Evidence) : noteOnce e known ≠ [] := by
  unfold noteOnce
  split
  · rename_i hmem
    rintro rfl
    simp at hmem
  · simp

theorem nodup_noteOnce (h : known.Nodup) (e : Evidence) : (noteOnce e known).Nodup := by
  unfold noteOnce
  split
  · exact h
  · rename_i hnew
    have hnew : e ∉ known := by simpa using hnew
    rw [List.nodup_append]
    refine ⟨h, List.nodup_singleton e, ?_⟩
    rintro a ha b hb rfl
    exact hnew (List.mem_singleton.1 hb ▸ ha)

theorem has_addFlag_iff : (l.addFlag f e).flags.has g = true ↔ f = g ∨ l.flags.has g = true :=
  FlagSet.has_insert_iff

theorem mem_evidence_addFlag_iff {code : String} :
    code ∈ (l.addFlag f e).evidence ↔ f.code = code ∨ code ∈ l.evidence := by
  rw [addFlag, Std.ExtTreeMap.mem_insert, compare_eq_iff_eq]

theorem getElem?_evidence_addFlag_self (l : Line) (f : Flag) (e : Evidence) :
    (l.addFlag f e).evidence[f.code]? = some (noteOnce e (l.evidence.getD f.code [])) :=
  Std.ExtTreeMap.getElem?_insert_self

theorem getElem?_evidence_addFlag_of_ne {code : String} (h : f.code ≠ code) (l : Line)
    (e : Evidence) : (l.addFlag f e).evidence[code]? = l.evidence[code]? := by
  rw [addFlag, Std.ExtTreeMap.getElem?_insert, if_neg (compare_eq_iff_eq.not.2 h)]

theorem getD_evidence_addFlag_self (l : Line) (f : Flag) (e : Evidence) :
    (l.addFlag f e).evidence.getD f.code [] = noteOnce e (l.evidence.getD f.code []) := by
  rw [Std.ExtTreeMap.getD_eq_getD_getElem?, getElem?_evidence_addFlag_self, Option.getD_some]

theorem getD_evidence_addFlag_of_ne {code : String} (h : f.code ≠ code) (l : Line)
    (e : Evidence) : (l.addFlag f e).evidence.getD code [] = l.evidence.getD code [] := by
  rw [Std.ExtTreeMap.getD_eq_getD_getElem?, getElem?_evidence_addFlag_of_ne h,
    ← Std.ExtTreeMap.getD_eq_getD_getElem?]

/-- The first line becomes the second by flags and evidence that are added to it. -/
structure GrowsTo (l l' : Line) : Prop where
  rest : l' = { l with flags := l'.flags, evidence := l'.evidence }
  flags : ∀ f, l.flags.has f = true → l'.flags.has f = true
  evidence : ∀ (code : String) (es : List Evidence), l.evidence[code]? = some es →
    ∃ es', l'.evidence[code]? = some es' ∧ es <+: es'

theorem GrowsTo.refl (l : Line) : l.GrowsTo l :=
  ⟨rfl, fun _ h => h, fun _ es hes => ⟨es, hes, List.prefix_refl es⟩⟩

theorem GrowsTo.trans (h : l.GrowsTo l') (h' : l'.GrowsTo l'') : l.GrowsTo l'' := by
  constructor
  case rest =>
    rw [h'.rest, h.rest]
  case flags =>
    intro f hf
    exact h'.flags f (h.flags f hf)
  case evidence =>
    intro code es hes
    obtain ⟨es', hes', hprefix⟩ := h.evidence code es hes
    obtain ⟨es'', hes'', hprefix'⟩ := h'.evidence code es' hes'
    exact ⟨es'', hes'', hprefix.trans hprefix'⟩

/-- What a line becomes is told by its flags and its evidence. -/
theorem GrowsTo.eq_of_same (h : l.GrowsTo l') (h' : l.GrowsTo l'') (hflags : l'.flags = l''.flags)
    (hevidence : l'.evidence = l''.evidence) : l' = l'' := by
  rw [h.rest, h'.rest, hflags, hevidence]

theorem growsTo_addFlag (l : Line) (f : Flag) (e : Evidence) : l.GrowsTo (l.addFlag f e) := by
  constructor
  case rest => rfl
  case flags =>
    intro g hg
    exact has_addFlag_iff.2 (.inr hg)
  case evidence =>
    intro code es hes
    by_cases hcode : f.code = code
    · subst hcode
      refine ⟨_, getElem?_evidence_addFlag_self l f e, ?_⟩
      rw [Std.ExtTreeMap.getD_eq_getD_getElem?, hes, Option.getD_some]
      exact prefix_noteOnce e es
    · exact ⟨es, by rw [getElem?_evidence_addFlag_of_ne hcode, hes], List.prefix_refl es⟩

/-- Different flags write to different places. -/
theorem addFlag_comm (h : f ≠ g) (l : Line) (e d : Evidence) :
    (l.addFlag f e).addFlag g d = (l.addFlag g d).addFlag f e := by
  have hcode : f.code ≠ g.code := Flag.code_inj.not.2 h
  apply GrowsTo.eq_of_same ((growsTo_addFlag l f e).trans (growsTo_addFlag _ g d))
    ((growsTo_addFlag l g d).trans (growsTo_addFlag _ f e))
  case hflags =>
    refine FlagSet.eq_of_has_iff fun flag => ?_
    simp only [has_addFlag_iff, or_left_comm]
  case hevidence =>
    refine Std.ExtTreeMap.ext_getElem? fun code => ?_
    by_cases hf : f.code = code
    · subst hf
      rw [getElem?_evidence_addFlag_of_ne hcode.symm, getElem?_evidence_addFlag_self,
        getElem?_evidence_addFlag_self, getD_evidence_addFlag_of_ne hcode.symm]
    · rw [getElem?_evidence_addFlag_of_ne hf]
      by_cases hg : g.code = code
      · subst hg
        rw [getElem?_evidence_addFlag_self, getElem?_evidence_addFlag_self,
          getD_evidence_addFlag_of_ne hcode]
      · rw [getElem?_evidence_addFlag_of_ne hg, getElem?_evidence_addFlag_of_ne hg,
          getElem?_evidence_addFlag_of_ne hf]

/-- The flag is raised on the line, and the evidence is noted with it. -/
structure Notes (l : Line) (f : Flag) (e : Evidence) : Prop where
  has : l.flags.has f = true
  evidence : ∃ es, l.evidence[f.code]? = some es ∧ e ∈ es

theorem notes_addFlag (l : Line) (f : Flag) (e : Evidence) : (l.addFlag f e).Notes f e where
  has := has_addFlag_iff.2 (.inl rfl)
  evidence := ⟨_, getElem?_evidence_addFlag_self l f e, mem_noteOnce_self e _⟩

theorem Notes.of_growsTo (h : l.Notes f e) (hgrows : l.GrowsTo l') : l'.Notes f e := by
  obtain ⟨es, hes, he⟩ := h.evidence
  obtain ⟨es', hes', hprefix⟩ := hgrows.evidence f.code es hes
  exact ⟨hgrows.flags f h.has, es', hes', hprefix.subset he⟩

theorem Notes.addFlag_eq_self (h : l.Notes f e) : l.addFlag f e = l := by
  obtain ⟨es, hes, he⟩ := h.evidence
  have hflags : l.flags.insert f = l.flags := FlagSet.insert_eq_self h.has
  have hknown : l.evidence.getD f.code [] = es := by
    rw [Std.ExtTreeMap.getD_eq_getD_getElem?, hes, Option.getD_some]
  have hevidence : l.evidence.insert f.code es = l.evidence := by
    refine Std.ExtTreeMap.ext_getElem? fun code => ?_
    rw [Std.ExtTreeMap.getElem?_insert]
    split
    · rename_i hcode
      rw [← compare_eq_iff_eq.1 hcode, hes]
    · rfl
  rw [addFlag, hknown, noteOnce_of_mem he, hflags, hevidence]

/-- The evidence is that of the raised flags, and none of it is repeated. -/
structure Documented (l : Line) : Prop where
  mem_evidence_iff : ∀ code, code ∈ l.evidence ↔ ∃ f : Flag, l.flags.has f = true ∧ f.code = code
  ne_nil : ∀ (code : String) (es : List Evidence), l.evidence[code]? = some es → es ≠ []
  nodup : ∀ (code : String) (es : List Evidence), l.evidence[code]? = some es → es.Nodup

theorem documented_of_unflagged (hflags : l.flags = {}) (hevidence : l.evidence = ∅) :
    l.Documented where
  mem_evidence_iff code := by
    rw [hevidence, hflags]
    constructor
    · intro hmem
      exact absurd hmem Std.ExtTreeMap.not_mem_empty
    · rintro ⟨f, hf, -⟩
      cases f <;> cases hf
  ne_nil code es hes := by simp [hevidence] at hes
  nodup code es hes := by simp [hevidence] at hes

theorem Documented.nodup_getD (h : l.Documented) (code : String) :
    (l.evidence.getD code []).Nodup := by
  rw [Std.ExtTreeMap.getD_eq_getD_getElem?]
  cases hes : l.evidence[code]? with
  | none => exact List.nodup_nil
  | some es => exact h.nodup code es hes

theorem Documented.has_iff (h : l.Documented) : l.flags.has f = true ↔ f.code ∈ l.evidence := by
  rw [h.mem_evidence_iff]
  constructor
  · intro hf
    exact ⟨f, hf, rfl⟩
  · rintro ⟨g, hg, hcode⟩
    rwa [← Flag.code_inj.1 hcode]

/-- No evidence at all and an empty list of evidence are told apart by the flags. -/
theorem Documented.getElem?_congr (h : l.Documented) (h' : l'.Documented) {code : String}
    (hsame : l.evidence.getD code [] = l'.evidence.getD code []) :
    l.evidence[code]? = l'.evidence[code]? := by
  rw [Std.ExtTreeMap.getD_eq_getD_getElem?, Std.ExtTreeMap.getD_eq_getD_getElem?] at hsame
  cases hes : l.evidence[code]? with
  | none =>
    cases hes' : l'.evidence[code]? with
    | none => rfl
    | some es' =>
      rw [hes, hes'] at hsame
      exact absurd hsame.symm (h'.ne_nil code es' hes')
  | some es =>
    cases hes' : l'.evidence[code]? with
    | none =>
      rw [hes, hes'] at hsame
      exact absurd hsame (h.ne_nil code es hes)
    | some es' =>
      rw [hes, hes'] at hsame
      exact congrArg some hsame

theorem Documented.same (h : l.Documented) (h' : l'.Documented)
    (hsame : ∀ f : Flag, l.evidence.getD f.code [] = l'.evidence.getD f.code []) :
    l.flags = l'.flags ∧ l.evidence = l'.evidence := by
  have hget (f : Flag) : l.evidence[f.code]? = l'.evidence[f.code]? :=
    h.getElem?_congr h' (hsame f)
  have hflags : l.flags = l'.flags := by
    refine FlagSet.eq_of_has_iff fun f => ?_
    rw [h.has_iff, h'.has_iff, Std.ExtTreeMap.mem_iff_isSome_getElem?,
      Std.ExtTreeMap.mem_iff_isSome_getElem?, hget f]
  refine ⟨hflags, Std.ExtTreeMap.ext_getElem? fun code => ?_⟩
  by_cases hcode : ∃ f : Flag, f.code = code
  · obtain ⟨f, rfl⟩ := hcode
    exact hget f
  · have hnone {m : Line} (hm : m.Documented) : m.evidence[code]? = none := by
      apply Std.ExtTreeMap.getElem?_eq_none
      rw [hm.mem_evidence_iff]
      rintro ⟨f, -, hf⟩
      exact hcode ⟨f, hf⟩
    rw [hnone h, hnone h']

theorem Documented.addFlag (h : l.Documented) (f : Flag) (e : Evidence) :
    (l.addFlag f e).Documented := by
  constructor
  case mem_evidence_iff =>
    intro code
    rw [mem_evidence_addFlag_iff, h.mem_evidence_iff]
    simp only [has_addFlag_iff, or_and_right, exists_or, exists_eq_left']
  case ne_nil =>
    intro code es hes
    by_cases hcode : f.code = code
    · rw [← hcode, getElem?_evidence_addFlag_self] at hes
      rw [← Option.some.inj hes]
      exact noteOnce_ne_nil e _
    · rw [getElem?_evidence_addFlag_of_ne hcode] at hes
      exact h.ne_nil code es hes
  case nodup =>
    intro code es hes
    by_cases hcode : f.code = code
    · rw [← hcode, getElem?_evidence_addFlag_self] at hes
      rw [← Option.some.inj hes]
      exact nodup_noteOnce (h.nodup_getD f.code) e
    · rw [getElem?_evidence_addFlag_of_ne hcode] at hes
      exact h.nodup code es hes

end Line

end Payables
