import Payables.Proofs.Line.Id
import Payables.Proofs.Merge.Lines
import Payables.Store

/-!
# Records and writes

A record is *filed* under a key if each of its lines stands under its own id, which tells the
statement of the key and the ordinal of the line, and if its heading is that of the key. The list
of a filed record then holds every line once, in the order of their ordinals, and looking for an
id among the listed lines is looking it up in the record.

Every write of a line, a heading or a publication that belongs to a key comes down to one form,
`Store.writeRecord`: a write that is let through changes the record of the key and no other.
-/

namespace Payables

/-- A line of a statement has the id of its ordinal. -/
structure Line.IsFiled (statement : String) (l : Line) : Prop where
  statement_eq : l.statement = statement
  id_eq : l.id = Line.idFor statement l.ordinal

theorem Line.IsFiled.id_inj {statement : String} {a b : Line} (ha : a.IsFiled statement)
    (hb : b.IsFiled statement) : a.id = b.id ↔ a.ordinal = b.ordinal := by
  rw [ha.id_eq, hb.id_eq, Line.idFor_inj]

namespace Record

structure Filed (k : StatementKey) (r : Record) : Prop where
  lines : ∀ (id : String) (l : Line), r.lines[id]? = some l → l.id = id ∧ l.IsFiled k.statement
  heading : ∀ h, r.heading? = some h → h.key = k

theorem filed_empty (k : StatementKey) : Filed k {} where
  lines id l h := by simp at h
  heading h hh := by cases hh

variable {k : StatementKey} {r : Record} {l : Line} {id : String}

theorem mem_listed_iff : l ∈ r.listed ↔ ∃ id : String, r.lines[id]? = some l := by
  simp only [listed, List.mem_mergeSort, List.mem_map, Prod.exists, exists_eq_right,
    Std.ExtTreeMap.mem_toList_iff_getElem?_eq_some]

theorem Filed.mem_listed_iff (h : r.Filed k) : l ∈ r.listed ↔ r.lines[l.id]? = some l := by
  rw [Record.mem_listed_iff]
  refine ⟨fun ⟨id, hl⟩ => ?_, fun hl => ⟨l.id, hl⟩⟩
  rwa [(h.lines id l hl).1]

theorem Filed.nodup_ids_listed (h : r.Filed k) : (r.listed.map Line.id).Nodup := by
  have hperm : (r.listed.map Line.id).Perm (r.lines.toList.map Prod.fst) := by
    refine ((List.mergeSort_perm _ _).map Line.id).trans (.of_eq ?_)
    rw [List.map_map]
    refine List.map_congr_left fun x hx => ?_
    exact (h.lines x.1 x.2 (Std.ExtTreeMap.mem_toList_iff_getElem?_eq_some.1 hx)).1
  rw [hperm.nodup_iff, Std.ExtTreeMap.map_fst_toList_eq_keys]
  exact Std.ExtTreeMap.nodup_keys

theorem Filed.kept?_listed (h : r.Filed k) : Merge.kept? r.listed id = r.lines[id]? := by
  refine Option.ext fun l => ?_
  rw [Merge.kept?_eq_some_iff h.nodup_ids_listed, h.mem_listed_iff]
  constructor
  · rintro ⟨hl, rfl⟩
    exact hl
  · intro hl
    obtain rfl := (h.lines id l hl).1
    exact ⟨hl, rfl⟩

theorem Filed.mem_ids_listed_iff (h : r.Filed k) : id ∈ r.listed.map Line.id ↔ id ∈ r.lines := by
  rw [← Merge.isSome_kept?_iff, h.kept?_listed, Std.ExtTreeMap.mem_iff_isSome_getElem?]

theorem pairwise_listed (r : Record) : r.listed.Pairwise fun a b => a.ordinal ≤ b.ordinal := by
  refine (List.pairwise_mergeSort ?_ ?_ _).imp fun h => of_decide_eq_true h
  · intro a b c hab hbc
    exact decide_eq_true (Nat.le_trans (of_decide_eq_true hab) (of_decide_eq_true hbc))
  · intro a b
    simpa using Nat.le_total a.ordinal b.ordinal

theorem pairwise_ordinal_lt {statement : String} {ls : List Line}
    (hfiled : ∀ l ∈ ls, l.IsFiled statement) (hids : (ls.map Line.id).Nodup)
    (hle : ls.Pairwise fun a b => a.ordinal ≤ b.ordinal) :
    ls.Pairwise fun a b => a.ordinal < b.ordinal := by
  refine ((List.pairwise_map.1 hids).and hle).imp_of_mem ?_
  rintro a b ha hb ⟨hne, hle⟩
  refine Nat.lt_of_le_of_ne hle fun heq => hne ?_
  exact ((hfiled a ha).id_inj (hfiled b hb)).2 heq

theorem eq_of_pairwise_ordinal_lt {ls ls' : List Line}
    (h : ls.Pairwise fun a b => a.ordinal < b.ordinal)
    (h' : ls'.Pairwise fun a b => a.ordinal < b.ordinal) (hmem : ∀ l, l ∈ ls ↔ l ∈ ls') :
    ls = ls' := by
  have hnodup : ∀ {xs : List Line}, (xs.Pairwise fun a b => a.ordinal < b.ordinal) → xs.Nodup := by
    intro xs hxs
    refine hxs.imp fun {a b} hlt => ?_
    rintro rfl
    exact Nat.lt_irrefl _ hlt
  have hperm : ls.Perm ls' := (List.perm_ext_iff_of_nodup (hnodup h) (hnodup h')).2 hmem
  exact hperm.eq_of_pairwise (fun a b _ _ hab hba => absurd hab (Nat.lt_asymm hba)) h h'

theorem Filed.isFiled_of_mem_listed (h : r.Filed k) (hl : l ∈ r.listed) :
    l.IsFiled k.statement :=
  (h.lines l.id l (h.mem_listed_iff.1 hl)).2

theorem Filed.pairwise_listed (h : r.Filed k) :
    r.listed.Pairwise fun a b => a.ordinal < b.ordinal :=
  pairwise_ordinal_lt (fun _ hl => h.isFiled_of_mem_listed hl) h.nodup_ids_listed
    r.pairwise_listed

theorem heading?_foldl_putLine (ls : List Line) (r : Record) :
    (ls.foldl putLine r).heading? = r.heading? := by
  induction ls generalizing r with
  | nil => rfl
  | cons a ls ih => exact ih (r.putLine a)

theorem published?_foldl_putLine (ls : List Line) (r : Record) :
    (ls.foldl putLine r).published? = r.published? := by
  induction ls generalizing r with
  | nil => rfl
  | cons a ls ih => exact ih (r.putLine a)

theorem getElem?_lines_foldl_putLine {ls : List Line} (h : (ls.map Line.id).Nodup) (r : Record)
    (id : String) :
    (ls.foldl putLine r).lines[id]? = (ls.find? (·.id == id)).or r.lines[id]? := by
  induction ls generalizing r with
  | nil => rfl
  | cons a ls ih =>
    obtain ⟨ha, hls⟩ := List.nodup_cons.1 h
    rw [List.foldl_cons, ih hls, putLine, Std.ExtTreeMap.getElem?_insert]
    by_cases hid : a.id = id
    · have hnone : ls.find? (·.id == id) = none := by
        refine List.find?_eq_none.2 fun b hb hb' => ha ?_
        rw [hid, ← beq_iff_eq.1 hb']
        exact List.mem_map_of_mem hb
      simp [hid, hnone]
    · simp [hid]

theorem getElem?_lines_removeLines (r : Record) (ids : List String) (id : String) :
    (r.removeLines ids).lines[id]? = if id ∈ ids then none else r.lines[id]? := by
  induction ids generalizing r with
  | nil => rfl
  | cons a ids ih =>
    have hcons : r.removeLines (a :: ids) =
        Record.removeLines { r with lines := r.lines.erase a } ids := rfl
    rw [hcons, ih, Std.ExtTreeMap.getElem?_erase]
    by_cases hid : a = id
    · simp [hid]
    · simp [hid, Ne.symm hid]

end Record

namespace Store

variable {s : Store} {k : StatementKey}

@[simp] theorem gate_update (s : Store) (k : StatementKey) (f : Record → Record) :
    (s.update k f).gate = s.gate := rfl

theorem update_id (s : Store) (k : StatementKey) : s.update k (fun r => r) = s := by
  obtain ⟨record, gate⟩ := s
  simp only [update, Store.mk.injEq, and_true]
  funext k'
  by_cases h : k' = k <;> simp [h]

theorem update_update (s : Store) (k : StatementKey) (f g : Record → Record) :
    (s.update k f).update k g = s.update k (g ∘ f) := by
  simp only [update, Store.mk.injEq, and_true]
  funext k'
  by_cases h : k' = k <;> simp [h]

theorem writeRecord_cases (s : Store) (k : StatementKey) (f : Record → Record) :
    (s.writeRecord k f).1 = .ok () ∧ (s.writeRecord k f).2.record = (s.update k f).record ∨
      (s.writeRecord k f).1 = .error .notAcceptingWrites ∧
        (s.writeRecord k f).2.record = s.record := by
  unfold writeRecord write
  rcases s.gate.pass with ⟨_ | _, gate⟩
  · exact .inr ⟨rfl, rfl⟩
  · exact .inl ⟨rfl, rfl⟩

theorem writeRecord_of_accepting (h : s.gate = .accepting) (f : Record → Record) :
    s.writeRecord k f = (.ok (), s.update k f) := by
  simp [writeRecord, write, h, Gate.pass, setGate, update]

theorem foldl_update_putLine {ls : List Line} (h : ∀ l ∈ ls, l.statement = k.statement)
    (s : Store) : ls.foldl (fun s l => s.update ⟨k.tenant, l.statement⟩ (·.putLine l)) s =
      s.update k fun r => ls.foldl Record.putLine r := by
  induction ls generalizing s with
  | nil => exact (update_id s k).symm
  | cons a ls ih =>
    obtain ⟨ha, hls⟩ := List.forall_mem_cons.1 h
    rw [List.foldl_cons, ih hls, ha, update_update]
    rfl

theorem putLines_eq_writeRecord {ls : List Line} (h : ∀ l ∈ ls, l.statement = k.statement)
    (s : Store) : s.putLines k.tenant ls = s.writeRecord k fun r => ls.foldl Record.putLine r := by
  simp only [putLines, writeRecord, foldl_update_putLine h]

theorem saveHeading_eq_writeRecord {h : Heading} (hk : h.key = k) (s : Store) :
    s.saveHeading h = s.writeRecord k ({ · with heading? := some h }) := by
  rw [← hk]
  rfl

end Store

end Payables
