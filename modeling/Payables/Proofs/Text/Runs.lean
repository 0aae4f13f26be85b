import Mathlib.Data.List.Chain
import Mathlib.Data.List.Infix
import Mathlib.Data.List.TakeWhile
import Payables.Text.Runs

/-!
# The cut of a text into runs

A text has one cut into runs of a class and the gaps between them (`IsCut`), and `split` finds it.
So the stretches that neighbouring pieces join to are known without the cut: they are the runs
joined by gaps (`Joined`) that no character of the class touches from outside (`StandsIn`).
-/

namespace Payables.Text

variable {p : Char → Bool}

theorem takeWhile_append_of_stop {w rest : List Char} (hw : ∀ c ∈ w, p c = true)
    (hrest : ∀ c ∈ rest.head?, p c = false) : (w ++ rest).takeWhile p = w := by
  rw [List.takeWhile_append_of_pos hw]
  cases rest with
  | nil => rw [List.takeWhile_nil, List.append_nil]
  | cons c cs => rw [List.takeWhile_cons, if_neg (by simp [hrest c rfl]), List.append_nil]

theorem dropWhile_append_of_stop {w rest : List Char} (hw : ∀ c ∈ w, p c = true)
    (hrest : ∀ c ∈ rest.head?, p c = false) : (w ++ rest).dropWhile p = rest := by
  rw [List.dropWhile_append_of_pos hw]
  cases rest with
  | nil => rfl
  | cons c cs => rw [List.dropWhile_cons, if_neg (by simp [hrest c rfl])]

structure Piece.IsCut (p : Char → Bool) (q : Piece) : Prop where
  run_ne : q.run ≠ []
  run : ∀ c ∈ q.run, p c = true
  gap : ∀ c ∈ q.gap, p c = false

def piecesText (ps : List Piece) : List Char := ps.flatMap fun q => q.run ++ q.gap

/-- Runs of the class, with a gap between any two of them. -/
structure ArePieces (p : Char → Bool) (ps : List Piece) : Prop where
  isCut : ∀ q ∈ ps, q.IsCut p
  gaps : ps.IsChain fun q _ => q.gap ≠ []

structure IsCut (p : Char → Bool) (s : List Char) (x : Pieces) : Prop where
  text : s = x.lead ++ piecesText x.pieces
  lead : ∀ c ∈ x.lead, p c = false
  pieces : ArePieces p x.pieces

theorem arePieces_nil : ArePieces p [] := ⟨by simp, .nil⟩

theorem arePieces_cons_iff {q : Piece} {qs : List Piece} :
    ArePieces p (q :: qs) ↔ q.IsCut p ∧ (qs ≠ [] → q.gap ≠ []) ∧ ArePieces p qs := by
  have hhead : (∀ q' ∈ qs.head?, q.gap ≠ []) ↔ (qs ≠ [] → q.gap ≠ []) := by cases qs <;> simp
  constructor
  · rintro ⟨hcut, hgaps⟩
    obtain ⟨hq, hqs⟩ := List.forall_mem_cons.1 hcut
    obtain ⟨hgap, hgaps⟩ := List.isChain_cons.1 hgaps
    exact ⟨hq, hhead.1 hgap, hqs, hgaps⟩
  · rintro ⟨hq, hgap, hqs, hgaps⟩
    exact ⟨List.forall_mem_cons.2 ⟨hq, hqs⟩, List.isChain_cons.2 ⟨hhead.2 hgap, hgaps⟩⟩

theorem isCut_split (p : Char → Bool) (s : List Char) : IsCut p s (split p s) := by
  induction s with
  | nil => exact ⟨rfl, by simp [split], arePieces_nil⟩
  | cons c cs ih =>
    obtain ⟨htext, hlead, hpieces⟩ := ih
    rw [split]
    generalize split p cs = x at htext hlead hpieces
    obtain ⟨lead, ps⟩ := x
    cases hc : p c with
    | false =>
      refine ⟨?_, List.forall_mem_cons.2 ⟨hc, hlead⟩, hpieces⟩
      simp [Pieces.consGap, htext]
    | true =>
      have hone : ∀ d ∈ [c], p d = true := List.forall_mem_singleton.2 hc
      cases lead with
      | cons b lead =>
        refine ⟨by simp [Pieces.consRun, htext, piecesText], by simp [Pieces.consRun], ?_⟩
        exact arePieces_cons_iff.2 ⟨⟨List.cons_ne_nil _ _, hone, hlead⟩,
          fun _ => List.cons_ne_nil _ _, hpieces⟩
      | nil =>
        cases ps with
        | nil =>
          refine ⟨by simp [Pieces.consRun, htext, piecesText], by simp [Pieces.consRun], ?_⟩
          exact arePieces_cons_iff.2 ⟨⟨List.cons_ne_nil _ _, hone, hlead⟩,
            fun hne => absurd rfl hne, arePieces_nil⟩
        | cons q qs =>
          obtain ⟨hq, hgap, hqs⟩ := arePieces_cons_iff.1 hpieces
          refine ⟨by simp [Pieces.consRun, htext, piecesText], by simp [Pieces.consRun], ?_⟩
          exact arePieces_cons_iff.2 ⟨⟨List.cons_ne_nil _ _, List.forall_mem_cons.2 ⟨hc, hq.run⟩,
            hq.gap⟩, hgap, hqs⟩

theorem IsCut.eq_split {s : List Char} {x : Pieces} (h : IsCut p s x) : split p s = x := by
  induction s generalizing x with
  | nil =>
    obtain ⟨lead, ps⟩ := x
    obtain ⟨hlead, hps⟩ := List.append_eq_nil_iff.1 h.text.symm
    cases ps with
    | nil => exact congrArg (Pieces.mk · []) hlead.symm
    | cons q qs =>
      exact absurd hps (by simp [piecesText, (arePieces_cons_iff.1 h.pieces).1.run_ne])
  | cons c cs ih =>
    obtain ⟨lead, ps⟩ := x
    obtain ⟨htext, hlead, hpieces⟩ := h
    cases lead with
    | cons b lead =>
      obtain ⟨rfl, hcs⟩ := List.cons.inj htext
      obtain ⟨hc, hlead⟩ := List.forall_mem_cons.1 hlead
      rw [split, if_neg (by simp [hc]), ih (x := ⟨lead, ps⟩) ⟨hcs, hlead, hpieces⟩]
      rfl
    | nil =>
      cases ps with
      | nil => cases htext
      | cons q qs =>
        obtain ⟨run, gap⟩ := q
        obtain ⟨hq, hgap, hqs⟩ := arePieces_cons_iff.1 hpieces
        obtain ⟨b, run, rfl⟩ := List.exists_cons_of_ne_nil hq.run_ne
        obtain ⟨rfl, hcs⟩ := List.cons.inj htext
        obtain ⟨hc, hrun⟩ := List.forall_mem_cons.1 hq.run
        rw [split, if_pos hc]
        cases run with
        | nil =>
          -- the run ends here, so what follows starts with its gap
          rw [ih (x := ⟨gap, qs⟩) ⟨hcs, hq.gap, hqs⟩]
          cases gap with
          | cons b gap => rfl
          | nil =>
            cases qs with
            | nil => rfl
            | cons q' qs => exact absurd rfl (hgap (List.cons_ne_nil _ _))
        | cons b run =>
          have hrest : ArePieces p (⟨b :: run, gap⟩ :: qs) :=
            arePieces_cons_iff.2 ⟨⟨List.cons_ne_nil _ _, hrun, hq.gap⟩, hgap, hqs⟩
          rw [ih (x := ⟨[], ⟨b :: run, gap⟩ :: qs⟩) ⟨hcs, by simp, hrest⟩]
          rfl

theorem arePieces_append_iff {ps qs : List Piece} :
    ArePieces p (ps ++ qs) ↔ ArePieces p ps ∧ ArePieces p qs ∧
      (qs ≠ [] → ∀ q ∈ ps.getLast?, q.gap ≠ []) := by
  have hjoint : (∀ q ∈ ps.getLast?, ∀ q' ∈ qs.head?, q.gap ≠ []) ↔
      (qs ≠ [] → ∀ q ∈ ps.getLast?, q.gap ≠ []) := by cases qs <;> simp
  constructor
  · rintro ⟨hcut, hgaps⟩
    obtain ⟨hps, hqs⟩ := List.forall_mem_append.1 hcut
    obtain ⟨hpsGaps, hqsGaps, hgap⟩ := List.isChain_append.1 hgaps
    exact ⟨⟨hps, hpsGaps⟩, ⟨hqs, hqsGaps⟩, hjoint.1 hgap⟩
  · rintro ⟨⟨hps, hpsGaps⟩, ⟨hqs, hqsGaps⟩, hgap⟩
    exact ⟨List.forall_mem_append.2 ⟨hps, hqs⟩,
      List.isChain_append.2 ⟨hpsGaps, hqsGaps, hjoint.2 hgap⟩⟩

theorem getLast?_text_iff {lead : List Char} {ps : List Piece} (hlead : ∀ c ∈ lead, p c = false)
    (hps : ArePieces p ps) :
    (∀ c ∈ (lead ++ piecesText ps).getLast?, p c = false) ↔ ∀ q ∈ ps.getLast?, q.gap ≠ [] := by
  rcases List.eq_nil_or_concat ps with rfl | ⟨ps, q, rfl⟩
  · refine iff_of_true (fun c hc => ?_) (by simp)
    rw [piecesText, List.flatMap_nil, List.append_nil] at hc
    exact hlead c (List.mem_of_getLast? hc)
  · have hq : q.IsCut p := hps.isCut q (by simp)
    obtain ⟨run, gap⟩ := q
    rw [List.concat_eq_append, List.getLast?_concat]
    rcases List.eq_nil_or_concat gap with rfl | ⟨gap, g, rfl⟩
    · obtain ⟨run, r, rfl⟩ := (List.eq_nil_or_concat run).resolve_left hq.run_ne
      have hr : p r = true := hq.run r (by simp)
      simp [piecesText, hr]
    · have hg : p g = false := hq.gap g (by simp)
      simp [piecesText, hg]

theorem head?_text_iff {lead : List Char} {ps : List Piece} (hlead : ∀ c ∈ lead, p c = false)
    (hps : ArePieces p ps) :
    (∀ c ∈ (lead ++ piecesText ps).head?, p c = false) ↔ (ps ≠ [] → lead ≠ []) := by
  cases lead with
  | cons b lead => simpa using hlead b List.mem_cons_self
  | nil =>
    cases ps with
    | nil => simp [piecesText]
    | cons q qs =>
      obtain ⟨hq, -, -⟩ := arePieces_cons_iff.1 hps
      obtain ⟨run, gap⟩ := q
      obtain ⟨r, run, rfl⟩ := List.exists_cons_of_ne_nil hq.run_ne
      have hr : p r = true := hq.run r List.mem_cons_self
      simp [piecesText, hr]

theorem piecesText_append (ps qs : List Piece) :
    piecesText (ps ++ qs) = piecesText ps ++ piecesText qs :=
  List.flatMap_append

theorem piecesText_concat (ps : List Piece) (q : Piece) :
    piecesText (ps ++ [q]) = joinPieces (ps ++ [q]) ++ q.gap := by
  induction ps with
  | nil => simp [piecesText, joinPieces]
  | cons q' ps ih =>
    rw [piecesText] at ih
    cases ps <;> simp_all [piecesText, joinPieces]

theorem infix_of_mem_runs {r s : List Char} (h : r ∈ runs p s) :
    r <:+: s ∧ ∀ c ∈ r, p c = true := by
  obtain ⟨q, hq, rfl⟩ := List.mem_map.1 h
  obtain ⟨htext, -, hpieces⟩ := isCut_split p s
  refine ⟨?_, (hpieces.isCut q hq).run⟩
  obtain ⟨earlier, later, heq⟩ := List.append_of_mem hq
  rw [htext, heq, piecesText_append]
  exact ⟨(split p s).lead ++ piecesText earlier, q.gap ++ piecesText later, by simp [piecesText]⟩

theorem ne_nil_of_mem_runs {r s : List Char} (h : r ∈ runs p s) : r ≠ [] := by
  obtain ⟨q, hq, rfl⟩ := List.mem_map.1 h
  exact ((isCut_split p s).pieces.isCut q hq).run_ne

theorem split_of_forall {t : List Char} (hne : t ≠ []) (ht : ∀ c ∈ t, p c = true) :
    split p t = ⟨[], [⟨t, []⟩]⟩ := by
  have hpiece : Piece.IsCut p ⟨t, []⟩ := ⟨hne, ht, by simp⟩
  refine IsCut.eq_split ⟨by simp [piecesText], by simp, ?_⟩
  exact arePieces_cons_iff.2 ⟨hpiece, fun h => absurd rfl h, arePieces_nil⟩

theorem runs_cons_of_neg {c : Char} (hc : p c = false) (s : List Char) :
    runs p (c :: s) = runs p s := by
  rw [runs, split, if_neg (by simp [hc])]
  rfl

theorem runs_cons_of_pos {c : Char} (hc : p c = true) (s : List Char) :
    runs p (c :: s) = [c] :: runs p s ∨
      ∃ r rs, runs p s = r :: rs ∧ runs p (c :: s) = (c :: r) :: rs := by
  rw [runs, split, if_pos hc, runs]
  rcases split p s with ⟨_ | ⟨b, lead⟩, _ | ⟨q, qs⟩⟩
  · exact .inl rfl
  · exact .inr ⟨q.run, qs.map (·.run), rfl, rfl⟩
  · exact .inl rfl
  · exact .inl rfl

/-- A run ends at a character that is not of the class. -/
theorem runs_append_cons {w : List Char} {c : Char} (hne : w ≠ []) (hw : ∀ d ∈ w, p d = true)
    (hc : p c = false) (s : List Char) : runs p (w ++ c :: s) = w :: runs p s := by
  obtain ⟨htext, hlead, hpieces⟩ := isCut_split p s
  have hgap : ∀ d ∈ c :: (split p s).lead, p d = false := List.forall_mem_cons.2 ⟨hc, hlead⟩
  have hcut : IsCut p (w ++ c :: s)
      ⟨[], ⟨w, c :: (split p s).lead⟩ :: (split p s).pieces⟩ := by
    constructor
    case text =>
      conv_lhs => rw [htext]
      simp [piecesText]
    case lead => exact List.forall_mem_nil _
    case pieces =>
      exact arePieces_cons_iff.2 ⟨⟨hne, hw, hgap⟩, fun _ => List.cons_ne_nil _ _, hpieces⟩
  rw [runs, hcut.eq_split]
  rfl

theorem flatten_runs (p : Char → Bool) (s : List Char) : (runs p s).flatten = s.filter p := by
  induction s with
  | nil => rfl
  | cons c s ih =>
    cases hc : p c with
    | false => rw [runs_cons_of_neg hc, ih, List.filter_cons_of_neg (by simp [hc])]
    | true =>
      rw [List.filter_cons_of_pos hc, ← ih]
      rcases runs_cons_of_pos hc s with hown | ⟨r, rs, hsplit, hlonger⟩
      · rw [hown, List.flatten_cons, List.singleton_append]
      · rw [hlonger, hsplit, List.flatten_cons, List.flatten_cons, List.cons_append]

theorem exists_runs_append {t : List Char} (hne : t ≠ [])
    (ht : ∀ c ∈ t, p c = true) (s : List Char) :
    ∃ rs r, runs p (s ++ t) = rs ++ [r ++ t] := by
  induction s with
  | nil =>
    refine ⟨[], [], ?_⟩
    rw [List.nil_append, runs, split_of_forall hne ht]
    rfl
  | cons c s ih =>
    obtain ⟨rs, r, hrs⟩ := ih
    rw [List.cons_append]
    cases hc : p c with
    | false => exact ⟨rs, r, by rw [runs_cons_of_neg hc, hrs]⟩
    | true =>
      rcases runs_cons_of_pos hc (s ++ t) with hown | ⟨first, rest, hsplit, hlonger⟩
      · exact ⟨[c] :: rs, r, by rw [hown, hrs, List.cons_append]⟩
      · rw [hrs] at hsplit
        cases rs with
        | nil =>
          obtain ⟨rfl, rfl⟩ := List.cons.inj hsplit
          exact ⟨[], c :: r, hlonger⟩
        | cons first' rs =>
          obtain ⟨rfl, rfl⟩ := List.cons.inj hsplit
          exact ⟨(c :: first') :: rs, r, hlonger⟩

/-- Runs of one class, `n` of them, joined by gaps of another. -/
inductive Joined (inRun inGap : Char → Bool) : Nat → List Char → Prop
  | run {r : List Char} : r ≠ [] → (∀ c ∈ r, inRun c = true) → Joined inRun inGap 1 r
  | join {n : Nat} {r gap s : List Char} : r ≠ [] → (∀ c ∈ r, inRun c = true) → gap ≠ [] →
      (∀ c ∈ gap, inGap c = true) → Joined inRun inGap n s →
        Joined inRun inGap (n + 1) (r ++ gap ++ s)

theorem Joined.of_mem {inRun inGap : Char → Bool} {n : Nat} {s : List Char}
    (h : Joined inRun inGap n s) {c : Char} (hc : c ∈ s) : inRun c = true ∨ inGap c = true := by
  induction h with
  | run _ hr => exact .inl (hr c hc)
  | join _ hr _ hbetween _ ih =>
    rcases List.mem_append.1 hc with hc | hc
    · exact (List.mem_append.1 hc).imp (hr c) (hbetween c)
    · exact ih hc

theorem Joined.exists_head {inRun inGap : Char → Bool} {n : Nat} {s : List Char}
    (h : Joined inRun inGap n s) : ∃ c ∈ s.head?, inRun c = true := by
  cases h with
  | run hne hr =>
    obtain ⟨c, r, rfl⟩ := List.exists_cons_of_ne_nil hne
    exact ⟨c, rfl, hr c List.mem_cons_self⟩
  | join hne hr _ _ _ =>
    obtain ⟨c, r, rfl⟩ := List.exists_cons_of_ne_nil hne
    exact ⟨c, rfl, hr c List.mem_cons_self⟩

theorem Joined.exists_last {inRun inGap : Char → Bool} {n : Nat} {s : List Char}
    (h : Joined inRun inGap n s) : ∃ c ∈ s.getLast?, inRun c = true := by
  induction h with
  | run hne hr =>
    obtain ⟨r, c, rfl⟩ := (List.eq_nil_or_concat _).resolve_left hne
    exact ⟨c, by simp, hr c (by simp)⟩
  | join _ _ _ _ _ ih =>
    obtain ⟨c, hc, hrun⟩ := ih
    refine ⟨c, ?_, hrun⟩
    rw [List.getLast?_append, Option.mem_def.1 hc]
    rfl

theorem Joined.map {inRun inGap inRun' inGap' : Char → Bool} {f : Char → Char} {n : Nat}
    {s : List Char} (h : Joined inRun inGap n s)
    (hrun : ∀ c, inRun c = true → inRun' (f c) = true)
    (hgap : ∀ c, inGap c = true → inGap' (f c) = true) : Joined inRun' inGap' n (s.map f) := by
  induction h with
  | run hne hr =>
    exact .run (by simpa using hne) (List.forall_mem_map.2 fun c hc => hrun c (hr c hc))
  | join hne hr hneGap hbetween _ ih =>
    rw [List.map_append, List.map_append]
    exact .join (by simpa using hne) (List.forall_mem_map.2 fun c hc => hrun c (hr c hc))
      (by simpa using hneGap) (List.forall_mem_map.2 fun c hc => hgap c (hbetween c hc)) ih

theorem Joined.mono {inRun inGap inRun' inGap' : Char → Bool} {n : Nat} {s : List Char}
    (h : Joined inRun inGap n s) (hrun : ∀ c, inRun c = true → inRun' c = true)
    (hgap : ∀ c, inGap c = true → inGap' c = true) : Joined inRun' inGap' n s := by
  simpa using h.map (f := id) hrun hgap

/-- A stretch of a text that consists of `n` whole runs of the class with the gaps between them. -/
structure StandsIn (p : Char → Bool) (n : Nat) (segment s : List Char) : Prop where
  joined : Joined p (!p ·) n segment
  around : ∃ before after, s = before ++ segment ++ after ∧
    (∀ c ∈ before.getLast?, p c = false) ∧ ∀ c ∈ after.head?, p c = false

theorem joined_joinPieces {ps : List Piece} (hne : ps ≠ []) (h : ArePieces p ps) :
    Joined p (!p ·) ps.length (joinPieces ps) := by
  induction ps with
  | nil => exact absurd rfl hne
  | cons q qs ih =>
    obtain ⟨hq, hgap, hqs⟩ := arePieces_cons_iff.1 h
    cases qs with
    | nil => exact .run hq.run_ne hq.run
    | cons q' qs =>
      have hne := List.cons_ne_nil q' qs
      exact .join hq.run_ne hq.run (hgap hne) (fun c hc => by simp [hq.gap c hc]) (ih hne hqs)

theorem Joined.exists_pieces {n : Nat} {s gap : List Char} (h : Joined p (!p ·) n s)
    (hgap : ∀ c ∈ gap, p c = false) :
    ∃ ps r, ArePieces p (ps ++ [⟨r, gap⟩]) ∧ joinPieces (ps ++ [⟨r, gap⟩]) = s ∧
      (ps ++ [⟨r, gap⟩]).length = n := by
  induction h with
  | @run r hne hr =>
    refine ⟨[], r, arePieces_cons_iff.2 ⟨⟨hne, hr, hgap⟩, fun h => absurd rfl h, arePieces_nil⟩, ?_⟩
    simp [joinPieces]
  | @join n r between s hne hr hbetween hout _ ih =>
    obtain ⟨ps, last, hps, hjoin, hlength⟩ := ih
    refine ⟨⟨r, between⟩ :: ps, last, ?_, ?_, by simpa using hlength⟩
    · exact arePieces_cons_iff.2 ⟨⟨hne, hr, fun c hc => by simpa using hout c hc⟩,
        fun _ => hbetween, hps⟩
    · rw [← hjoin]
      cases ps <;> simp [joinPieces]

/-- The stretches that neighbouring pieces of a text join to are the whole runs with what is
between them. -/
theorem exists_infix_iff {n : Nat} {segment s : List Char} :
    (∃ ps, ps <:+: (split p s).pieces ∧ ps ≠ [] ∧ ps.length = n ∧ joinPieces ps = segment) ↔
      StandsIn p n segment s := by
  constructor
  · rintro ⟨ps, ⟨earlier, later, hsplit⟩, hne, rfl, rfl⟩
    obtain ⟨htext, hlead, hpieces⟩ := isCut_split p s
    generalize split p s = x at hsplit htext hlead hpieces
    rw [← hsplit] at htext hpieces
    obtain ⟨hfirst, hlater, hafter⟩ := arePieces_append_iff.1 hpieces
    obtain ⟨hearlier, hps, hbefore⟩ := arePieces_append_iff.1 hfirst
    refine ⟨joined_joinPieces hne hps, ?_⟩
    obtain ⟨ps, q, rfl⟩ := (List.eq_nil_or_concat ps).resolve_left hne
    rw [List.concat_eq_append] at *
    have hgap : ∀ c ∈ q.gap, p c = false := (hps.isCut q (by simp)).gap
    refine ⟨x.lead ++ piecesText earlier, q.gap ++ piecesText later, ?_, ?_, ?_⟩
    · rw [htext, piecesText_append, piecesText_append, piecesText_concat]
      simp only [List.append_assoc]
    · exact (getLast?_text_iff hlead hearlier).2 (hbefore (by simp))
    · exact (head?_text_iff hgap hlater).2 fun hne => hafter hne q (by simp)
  · rintro ⟨hjoined, before, after, rfl, hbefore, hafter⟩
    obtain ⟨htextBefore, hlead, hearlier⟩ := isCut_split p before
    obtain ⟨htextAfter, hgap, hlater⟩ := isCut_split p after
    generalize split p before = x at htextBefore hlead hearlier
    generalize split p after = y at htextAfter hgap hlater
    obtain ⟨ps, r, hps, hjoin, hlength⟩ := hjoined.exists_pieces hgap
    rw [htextBefore, getLast?_text_iff hlead hearlier] at hbefore
    rw [htextAfter, head?_text_iff hgap hlater] at hafter
    have hcut : IsCut p (before ++ segment ++ after)
        ⟨x.lead, x.pieces ++ (ps ++ [⟨r, y.lead⟩]) ++ y.pieces⟩ := by
      refine ⟨?_, hlead, ?_⟩
      · rw [htextBefore, htextAfter, ← hjoin, piecesText_append, piecesText_append,
          piecesText_concat]
        simp only [List.append_assoc]
      · refine arePieces_append_iff.2 ⟨arePieces_append_iff.2 ⟨hearlier, hps, fun _ => hbefore⟩,
          hlater, fun hne q hq => ?_⟩
        rw [← List.append_assoc, List.getLast?_concat] at hq
        cases hq
        exact hafter hne
    refine ⟨ps ++ [⟨r, y.lead⟩], ?_, by simp, hlength, hjoin⟩
    rw [hcut.eq_split]
    exact List.infix_append _ _ _

end Payables.Text
