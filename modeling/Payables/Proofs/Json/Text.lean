import Payables.Json.Reader
import Payables.Json.Writer
import Payables.Proofs.Json.Reordered
import Payables.Proofs.Text.Numeral
import Payables.Proofs.Text.Runs

/-!
# JSON texts that are read back

What `Json.write` writes is read by `Json.read?` as the value that was written, if it fits: its
integers fit a machine word, and nothing in it is a real or garbled. A written value ends where the
text does or where an array or an object goes on or ends, which no value can be read across.
-/

namespace Payables.Json

open Text

theorem spelledChars_control {n : Nat} (hn : n < 0x20) (us : List StringUnit) :
    spelledChars (.code n :: us) = some (Char.ofNat n) :: spelledChars us := by
  have hhigh : isHighSurrogate n = false := by simp [isHighSurrogate]; omega
  have hlow : isLowSurrogate n = false := by simp [isLowSurrogate]; omega
  rcases us with _ | ⟨_ | m, us⟩ <;> simp [spelledChars, hhigh, hlow]

theorem hexCode?_hexDigit : ∀ n < 0x20,
    hexCode? '0' '0' (hexDigit (n / 16)) (hexDigit (n % 16)) = some n := by
  decide

/-- A unit that stands for a character, with whatever units after it. -/
def Spells (u : StringUnit) (c : Char) : Prop :=
  ∀ us, spelledChars (u :: us) = some c :: spelledChars us

theorem spells_char (c : Char) : Spells (.char c) c := fun us => by rw [spelledChars]

theorem spells_control {c : Char} (hc : c.toNat < 0x20) : Spells (.code c.toNat) c := by
  intro us
  rw [spelledChars_control hc, Char.ofNat_toNat]

section

variable {s r : List Char} {us : List StringUnit}

theorem readString_control {c : Char} (hc : c.toNat < 0x20) (h : readString s = some (us, r)) :
    readString ('\\' :: 'u' :: '0' :: '0' :: hexDigit (c.toNat / 16) :: hexDigit (c.toNat % 16) ::
      s) = some (.code c.toNat :: us, r) := by
  rw [readString, hexCode?_hexDigit c.toNat hc, h]
  rfl

theorem readString_escape {e c : Char} (he : simpleEscape? e = some c)
    (h : readString s = some (us, r)) :
    readString ('\\' :: e :: s) = some (.char c :: us, r) := by
  rw [readString, he, h]
  · rfl
  · rintro _ _ _ _ _ rfl
    cases he

theorem readString_plain {c : Char} (hquote : c ≠ '"') (hbackslash : c ≠ '\\')
    (hc : ¬ c.toNat < 0x20) (h : readString s = some (us, r)) :
    readString (c :: s) = some (.char c :: us, r) := by
  rw [readString, if_neg hc, h]
  · rfl
  · exact hquote
  · exact fun _ _ _ _ _ heq _ => hbackslash heq
  · exact fun _ _ heq _ => hbackslash heq

end

/-- An escape stands for its character, and any other character for itself. -/
theorem exists_readString_writeChar (c : Char) : ∃ u, Spells u c ∧
    ∀ {s r : List Char} {us : List StringUnit}, readString s = some (us, r) →
      readString (writeChar c ++ s) = some (u :: us, r) := by
  unfold writeChar
  split
  case h_8 hquote hbackslash _ _ _ _ _ =>
    split
    · exact ⟨_, spells_control ‹_›, readString_control ‹_›⟩
    · exact ⟨_, spells_char _, readString_plain hquote hbackslash ‹_›⟩
  all_goals exact ⟨_, spells_char _, readString_escape rfl⟩

theorem exists_readString_chars (cs rest : List Char) : ∃ us,
    readString (cs.flatMap writeChar ++ '"' :: rest) = some (us, rest) ∧
      spelledChars us = cs.map some := by
  induction cs with
  | nil => exact ⟨[], by rw [List.flatMap_nil, List.nil_append, readString], rfl⟩
  | cons c cs ih =>
    obtain ⟨us, hread, hspelled⟩ := ih
    obtain ⟨u, hspells, hchar⟩ := exists_readString_writeChar c
    refine ⟨u :: us, ?_, ?_⟩
    · rw [List.flatMap_cons, List.append_assoc]
      exact hchar hread
    · rw [hspells, hspelled, List.map_cons]

theorem exists_readString_write (s : String) (rest : List Char) : ∃ us,
    readString (s.toList.flatMap writeChar ++ '"' :: rest) = some (us, rest) ∧
      text? us = some s := by
  obtain ⟨us, hread, hspelled⟩ := exists_readString_chars s.toList rest
  have hchars : (s.toList.map some).mapM id = some s.toList := by
    rw [List.mapM_map]
    exact List.mapM_pure.trans (congrArg some (List.map_id' _))
  refine ⟨us, hread, ?_⟩
  rw [text?, hspelled, hchars, Option.map_some, String.ofList_toList]

/-- What can follow a value inside an array or an object, and at the end of the text. -/
def EndsValue (rest : List Char) : Prop := ∀ c ∈ rest.head?, c = ',' ∨ c = ']' ∨ c = '\x7d'

theorem endsValue_nil : EndsValue [] := by simp [EndsValue]

theorem endsValue_cons {c : Char} (hc : c = ',' ∨ c = ']' ∨ c = '\x7d') (rest : List Char) :
    EndsValue (c :: rest) := by
  rintro _ ⟨⟩
  exact hc

theorem EndsValue.readDigits {rest ds : List Char} (h : EndsValue rest)
    (hds : ∀ c ∈ ds, c.isDigit = true) : readDigits (ds ++ rest) = (ds, rest) := by
  have hstop : ∀ c ∈ rest.head?, c.isDigit = false := by
    intro c hc
    rcases h c hc with rfl | rfl | rfl <;> rfl
  rw [Json.readDigits, List.span_eq_takeWhile_dropWhile, takeWhile_append_of_stop hds hstop,
    dropWhile_append_of_stop hds hstop]

theorem EndsValue.readDecimals {rest : List Char} (h : EndsValue rest) :
    readDecimals rest = some ([], rest) := by
  unfold Json.readDecimals
  split
  · have := h '.' rfl
    simp at this
  · rfl

theorem EndsValue.readExponent {rest : List Char} (h : EndsValue rest) :
    readExponent rest = some (none, rest) := by
  rcases rest with _ | ⟨c, rest⟩
  · rfl
  · rcases h c rfl with rfl | rfl | rfl <;> rfl

theorem readUnsigned_digits (negative : Bool) (n : Nat) {rest : List Char} (h : EndsValue rest) :
    readUnsigned negative (digits n ++ rest) =
      some (Literal.toJson { negative, whole := digits n }, rest) := by
  have hdigits := h.readDigits fun c => isDigit_of_mem_digits (n := n)
  rw [readUnsigned, hdigits]
  rcases Nat.eq_zero_or_pos n with rfl | hn
  · simp only [digits, Nat.toDigits_zero, h.readDecimals, h.readExponent, Option.bind_eq_bind,
      Option.bind_some, Option.pure_def]
  · obtain ⟨d, ds, heq, hd⟩ := exists_digits_cons hn
    simp [heq, hd, h.readDecimals, h.readExponent]

def IsWord (n : Int) : Prop := leastInteger ≤ n ∧ n < wordBound

theorem toJson_digits {n : Nat} (hn : n < wordBound) :
    Literal.toJson { negative := false, whole := digits n } = .integer n := by
  simp [Literal.toJson, Literal.isInteger, value_digits, hn]

theorem toJson_minus_digits {n : Nat} (hpos : n ≠ 0) (hn : leastInteger ≤ -n) :
    Literal.toJson { negative := true, whole := digits n } = .integer (-n) := by
  simp [Literal.toJson, Literal.isInteger, value_digits, hpos, Int.not_lt.2 hn]

theorem readNumber_write {n : Int} (hn : IsWord n) {rest : List Char} (h : EndsValue rest) :
    readNumber (writeInteger n ++ rest) = some (.integer n, rest) := by
  obtain ⟨hleast, hbound⟩ := hn
  unfold writeInteger
  split
  · have habs : -(n.natAbs : Int) = n := by omega
    rw [List.cons_append, readNumber, readUnsigned_digits true n.natAbs h,
      toJson_minus_digits (by omega) (habs.symm ▸ hleast), habs]
  · obtain ⟨m, rfl⟩ := Int.eq_ofNat_of_zero_le (Int.not_lt.1 ‹_›)
    have hne : ∀ s, digits m ++ rest = '-' :: s → False := by
      intro s heq
      obtain ⟨d, ds, hdigits, hd⟩ := exists_isDigit_digits m
      rw [hdigits, List.cons_append, List.cons.injEq] at heq
      rw [heq.1] at hd
      cases hd
    rw [Int.natAbs_natCast, readNumber, readUnsigned_digits false m h,
      toJson_digits (Int.ofNat_lt.1 hbound)]
    exact hne

/-- What a text can hold without loss: its integers are words of the machine, and nothing in it is
a real or garbled. -/
inductive Fits : Json → Prop
  | null : Fits .null
  | bool (b : Bool) : Fits (.bool b)
  | integer {n : Int} : IsWord n → Fits (.integer n)
  | string (s : String) : Fits (.string s)
  | array {xs : List Json} : (∀ x ∈ xs, Fits x) → Fits (.array xs)
  | object {ms : List (String × Json)} : (∀ m ∈ ms, Fits m.2) → Fits (.object ms)

/-- The value is read from its text, whatever follows, if there is fuel for each character. -/
def IsReadBack (j : Json) : Prop := ∀ fuel rest, (writeValue j).length ≤ fuel → EndsValue rest →
  readValue (fuel + 1) (writeValue j ++ rest) = some (j, rest)

theorem skipSpace_cons {c : Char} (hc : isSpace c = false) (s : List Char) :
    skipSpace (c :: s) = c :: s := by
  rw [skipSpace, List.dropWhile_cons_of_neg (by rw [hc]; exact Bool.false_ne_true)]

def StartsNumber (c : Char) : Prop := c = '-' ∨ c.isDigit = true

theorem exists_writeInteger_cons (n : Int) :
    ∃ c cs, writeInteger n = c :: cs ∧ StartsNumber c := by
  unfold writeInteger
  split
  · exact ⟨_, _, rfl, .inl rfl⟩
  · obtain ⟨d, ds, hdigits, hd⟩ := exists_isDigit_digits n.natAbs
    exact ⟨d, ds, hdigits, .inr hd⟩

theorem StartsNumber.isSpace {c : Char} (h : StartsNumber c) : isSpace c = false := by
  rcases h with rfl | h
  · rfl
  · exact forall_isDigit (P := fun c => Json.isSpace c = false) (by decide) h

theorem StartsNumber.readValue {c : Char} (h : StartsNumber c) (fuel : Nat) (s : List Char) :
    readValue (fuel + 1) (c :: s) = readNumber (c :: s) := by
  have hstart : ∀ c', c' = 'n' ∨ c' = 't' ∨ c' = 'f' ∨ c' = '"' ∨ c' = '[' ∨ c' = '\x7b' →
      c ≠ c' := by
    rintro _ (rfl | rfl | rfl | rfl | rfl | rfl) rfl <;> rcases h with h | h <;> cases h
  rw [Json.readValue, skipSpace_cons h.isSpace]
  simp [hstart]

theorem isReadBack_integer {n : Int} (hn : IsWord n) : IsReadBack (.integer n) := by
  intro fuel rest _ h
  obtain ⟨c, cs, hcs, hstart⟩ := exists_writeInteger_cons n
  rw [writeValue, hcs, List.cons_append, hstart.readValue, ← List.cons_append, ← hcs,
    readNumber_write hn h]

theorem readValue_quote (fuel : Nat) (s : List Char) :
    readValue (fuel + 1) ('"' :: s) = (readString s).map fun p => (ofUnits p.1, p.2) := rfl

theorem isReadBack_string (s : String) : IsReadBack (.string s) := by
  intro fuel rest _ _
  obtain ⟨us, hread, htext⟩ := exists_readString_write s rest
  rw [writeValue, writeString, List.cons_append, List.cons_append, List.append_assoc,
    List.singleton_append, readValue_quote, hread, Option.map_some, ofUnits, htext]

theorem Fits.exists_cons {j : Json} (h : Fits j) :
    ∃ c cs, writeValue j = c :: cs ∧ isSpace c = false ∧ c ≠ ']' := by
  cases h with
  | null => exact ⟨_, _, rfl, rfl, by decide⟩
  | bool b => cases b <;> exact ⟨_, _, rfl, rfl, by decide⟩
  | @integer n _ =>
    obtain ⟨c, cs, hcs, hstart⟩ := exists_writeInteger_cons n
    refine ⟨c, cs, hcs, hstart.isSpace, ?_⟩
    rintro rfl
    rcases hstart with h | h <;> cases h
  | string => exact ⟨_, _, rfl, rfl, by decide⟩
  | array => exact ⟨_, _, rfl, rfl, by decide⟩
  | object => exact ⟨_, _, rfl, rfl, by decide⟩

theorem exists_writeElements_cons {x : Json} (xs : List Json) (h : Fits x) :
    ∃ c cs, writeElements (x :: xs) = c :: cs ∧ isSpace c = false ∧ c ≠ ']' := by
  obtain ⟨c, cs, hcs, hc⟩ := h.exists_cons
  cases xs with
  | nil => exact ⟨c, cs, by rw [writeElements, hcs], hc⟩
  | cons y ys =>
    refine ⟨c, cs ++ ',' :: writeElements (y :: ys), ?_, hc⟩
    rw [writeElements, hcs, List.cons_append]

theorem readElements_write {x : Json} {xs : List Json} (h : ∀ y ∈ x :: xs, IsReadBack y)
    {fuel : Nat} (hfuel : (writeElements (x :: xs)).length ≤ fuel) (rest : List Char) :
    readElements (fuel + 2) (writeElements (x :: xs) ++ ']' :: rest) = some (x :: xs, rest) := by
  induction xs generalizing x fuel with
  | nil =>
    rw [writeElements] at hfuel ⊢
    rw [readElements, h x (by simp) fuel _ hfuel (endsValue_cons (.inr (.inl rfl)) rest)]
    rfl
  | cons y ys ih =>
    obtain ⟨hx, hys⟩ := List.forall_mem_cons.1 h
    rw [writeElements, List.length_append, List.length_cons] at hfuel
    obtain ⟨fuel, rfl⟩ : ∃ k, fuel = k + 1 := Nat.exists_eq_add_of_le' (by omega)
    rw [writeElements, List.append_assoc, List.cons_append, readElements,
      hx (fuel + 1) _ (by omega) (endsValue_cons (.inl rfl) _)]
    change (readElements (fuel + 2) (writeElements (y :: ys) ++ ']' :: rest)).bind _ = _
    rw [ih hys (by omega)]
    rfl

theorem readValue_array (fuel : Nat) {c : Char} (hspace : isSpace c = false) (hend : c ≠ ']')
    (s : List Char) : readValue (fuel + 1) ('[' :: c :: s) =
      (readElements fuel (c :: s)).map fun p => (.array p.1, p.2) := by
  have hbracket : skipSpace ('[' :: c :: s) = '[' :: c :: s := rfl
  rw [readValue, hbracket]
  simp [skipSpace_cons hspace, hend]

theorem isReadBack_array {xs : List Json} (hfits : ∀ x ∈ xs, Fits x)
    (h : ∀ x ∈ xs, IsReadBack x) : IsReadBack (.array xs) := by
  intro fuel rest hfuel _
  cases xs with
  | nil => rfl
  | cons x xs =>
    obtain ⟨c, cs, hcs, hspace, hend⟩ := exists_writeElements_cons xs (hfits x (by simp))
    rw [writeValue, List.length_append, List.length_cons, List.length_singleton] at hfuel
    obtain ⟨fuel, rfl⟩ : ∃ k, fuel = k + 2 := Nat.exists_eq_add_of_le' (by omega)
    have hread := readElements_write h
      (show (writeElements (x :: xs)).length ≤ fuel by omega) rest
    have htext : writeValue (.array (x :: xs)) ++ rest = '[' :: c :: (cs ++ ']' :: rest) := by
      simp [writeValue, hcs]
    rw [hcs, List.cons_append] at hread
    rw [htext, readValue_array _ hspace hend, hread, Option.map_some]

theorem readValue_object (fuel : Nat) (s : List Char) :
    readValue (fuel + 1) ('\x7b' :: '"' :: s) =
      (readMembers fuel ('"' :: s)).map fun p => (ofMembers p.1, p.2) := rfl

/-- Members as they are read, whose names are still to be spelled. -/
def AreSpelled (ums : List (List StringUnit × Json)) (ms : List (String × Json)) : Prop :=
  List.Forall₂ (fun um m => text? um.1 = some m.1 ∧ um.2 = m.2) ums ms

theorem AreSpelled.ofMembers {ums : List (List StringUnit × Json)} {ms : List (String × Json)}
    (h : AreSpelled ums ms) : ofMembers ums = .object ms := by
  have hread : ums.mapM (fun um => (text? um.1).map (·, um.2)) = some ms := by
    induction h with
    | nil => rfl
    | cons hmember _ ih =>
      rw [List.mapM_cons, ih, hmember.1, hmember.2]
      rfl
  rw [Json.ofMembers, hread]

/-- A name, a colon and a value are read as a member, and what follows decides whether it is the
last one. -/
theorem exists_readMember {m : String × Json} (h : IsReadBack m.2) {fuel : Nat}
    (hfuel : (writeValue m.2).length ≤ fuel) {rest : List Char} (hrest : EndsValue rest) :
    ∃ us, text? us = some m.1 ∧
      (∀ r, rest = '\x7d' :: r →
        readMembers (fuel + 2) (writeString m.1 ++ ':' :: writeValue m.2 ++ rest) =
          some ([(us, m.2)], r)) ∧
      ∀ r ums r', rest = ',' :: r → readMembers (fuel + 1) r = some (ums, r') →
        readMembers (fuel + 2) (writeString m.1 ++ ':' :: writeValue m.2 ++ rest) =
          some ((us, m.2) :: ums, r') := by
  obtain ⟨us, hread, htext⟩ := exists_readString_write m.1 (':' :: (writeValue m.2 ++ rest))
  have hname : writeString m.1 ++ ':' :: writeValue m.2 ++ rest = '"' ::
      (m.1.toList.flatMap writeChar ++ '"' :: ':' :: (writeValue m.2 ++ rest)) := by
    simp [writeString]
  have hvalue := h fuel rest hfuel hrest
  have hquote (s : List Char) : skipSpace ('"' :: s) = '"' :: s := rfl
  have hcolon (s : List Char) : skipSpace (':' :: s) = ':' :: s := rfl
  refine ⟨us, htext, fun r heq => ?_, fun r ums r' heq hums => ?_⟩
  · have hend : skipSpace rest = '\x7d' :: r := by rw [heq]; rfl
    rw [hname, readMembers]
    simp only [hquote, hread, hcolon, hvalue, hend, Option.bind_eq_bind, Option.bind_some,
      Option.pure_def]
  · have hcomma : skipSpace rest = ',' :: r := by rw [heq]; rfl
    rw [hname, readMembers]
    simp only [hquote, hread, hcolon, hvalue, hcomma, hums, Option.bind_eq_bind, Option.bind_some,
      Option.pure_def]

theorem exists_readMembers_write {m : String × Json} {ms : List (String × Json)}
    (h : ∀ n ∈ m :: ms, IsReadBack n.2) {fuel : Nat}
    (hfuel : (writeMembers (m :: ms)).length ≤ fuel) (rest : List Char) :
    ∃ ums, readMembers (fuel + 2) (writeMembers (m :: ms) ++ '\x7d' :: rest) =
      some (ums, rest) ∧ AreSpelled ums (m :: ms) := by
  induction ms generalizing m fuel with
  | nil =>
    rw [writeMembers, List.length_append, List.length_cons] at hfuel
    obtain ⟨us, htext, hlast, -⟩ := exists_readMember (h m (by simp))
      (show (writeValue m.2).length ≤ fuel by omega) (endsValue_cons (.inr (.inr rfl)) rest)
    exact ⟨[(us, m.2)], hlast rest rfl, .cons ⟨htext, rfl⟩ .nil⟩
  | cons n ns ih =>
    obtain ⟨hm, hns⟩ := List.forall_mem_cons.1 h
    simp only [writeMembers, List.length_append, List.length_cons] at hfuel
    obtain ⟨fuel, rfl⟩ : ∃ k, fuel = k + 1 := Nat.exists_eq_add_of_le' (by omega)
    obtain ⟨ums, hums, hspelled⟩ := ih hns (show (writeMembers (n :: ns)).length ≤ fuel by omega)
    obtain ⟨us, htext, -, hnext⟩ := exists_readMember hm
      (show (writeValue m.2).length ≤ fuel + 1 by omega)
      (endsValue_cons (.inl rfl) (writeMembers (n :: ns) ++ '\x7d' :: rest))
    refine ⟨(us, m.2) :: ums, ?_, .cons ⟨htext, rfl⟩ hspelled⟩
    rw [writeMembers, List.append_assoc, List.cons_append]
    exact hnext _ ums rest rfl hums

theorem isReadBack_object {ms : List (String × Json)} (h : ∀ m ∈ ms, IsReadBack m.2) :
    IsReadBack (.object ms) := by
  intro fuel rest hfuel _
  cases ms with
  | nil => rfl
  | cons m ms =>
    rw [writeValue, List.length_append, List.length_cons, List.length_singleton] at hfuel
    obtain ⟨fuel, rfl⟩ : ∃ k, fuel = k + 2 := Nat.exists_eq_add_of_le' (by omega)
    obtain ⟨ums, hread, hspelled⟩ := exists_readMembers_write h
      (show (writeMembers (m :: ms)).length ≤ fuel by omega) rest
    obtain ⟨cs, hcs⟩ : ∃ cs, writeMembers (m :: ms) = '"' :: cs := by
      cases ms <;> exact ⟨_, rfl⟩
    have htext : writeValue (.object (m :: ms)) ++ rest =
        '\x7b' :: '"' :: (cs ++ '\x7d' :: rest) := by
      simp [writeValue, hcs]
    rw [hcs, List.cons_append] at hread
    rw [htext, readValue_object, hread, Option.map_some, hspelled.ofMembers]

/-- By induction on what fits: each element and each value of a member has fuel of its own left. -/
theorem Fits.isReadBack {j : Json} (h : Fits j) : IsReadBack j := by
  induction h with
  | null => exact fun fuel rest _ _ => rfl
  | bool b => cases b <;> exact fun fuel rest _ _ => rfl
  | integer hn => exact isReadBack_integer hn
  | string s => exact isReadBack_string s
  | array hxs ih => exact isReadBack_array hxs ih
  | object _ ih => exact isReadBack_object ih

theorem Fits.read?_write {j : Json} (h : Fits j) : read? (write j) = some j := by
  have hread := h.isReadBack (writeValue j).length [] le_rfl endsValue_nil
  rw [List.append_nil] at hread
  rw [read?, write, String.length_ofList, String.toList_ofList, hread]
  rfl

theorem Fits.reordered {j j' : Json} (h : Fits j) (hj : Reordered j j') : Fits j' := by
  induction h generalizing j' with
  | null => exact hj.eq_null ▸ .null
  | bool b => exact hj.eq_bool ▸ .bool b
  | integer hn => exact hj.eq_integer ▸ .integer hn
  | string s => exact hj.eq_string ▸ .string s
  | array _ ih =>
    obtain ⟨ys, rfl, hys⟩ := hj.exists_array
    refine .array fun y hy => ?_
    obtain ⟨x, hx, hreordered⟩ := exists_mem_of_forall₂ hys hy
    exact ih x hx hreordered
  | object _ ih =>
    obtain ⟨ns, ps, rfl, hns, hperm⟩ := hj.exists_object
    refine .object fun p hp => ?_
    obtain ⟨m, hm, -, hreordered⟩ := exists_mem_of_forall₂ hns (hperm.mem_iff.2 hp)
    exact ih m hm hreordered

end Payables.Json
