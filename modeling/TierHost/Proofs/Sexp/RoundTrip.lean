import TierHost.Sexp.Reader
import Mathlib.Tactic.Common

/-!
Reading what was written. Every character of a text survives its escapes, an atom ends where the
next character cannot belong to it, and a list ends at its bracket.
-/

namespace TierHost.Sexp

/-- A name whose characters all belong to one atom, and that an atom stands for. -/
structure IsAtom (name : String) : Prop where
  nonempty : name.toList ≠ []
  plain : ∀ c ∈ name.toList, endsAtom c = false ∧ c ≠ '\\' ∧ c ≠ '\''
  reads : ofToken name.toList = .symbol name

/-- Expressions made of symbols, texts and parenthesised lists. -/
inductive Plain : Sexp → Prop
  | symbol {name : String} (atom : IsAtom name) : Plain (.symbol name)
  | text (s : String) : Plain (.text s)
  | list {items : List Sexp} (inside : ∀ item ∈ items, item.Plain) : Plain (.list items)

theorem readText_escape (c : Char) {s rest tail : List Char} (h : readText tail = .ok (s, rest)) :
    readText ('\\' :: c :: tail) = .ok (unescapeText c ++ s, rest) := by
  rw [readText, h]
  rfl

theorem readText_plain {c : Char} {s rest tail : List Char} (hq : c ≠ '"') (hb : c ≠ '\\')
    (h : readText tail = .ok (s, rest)) : readText (c :: tail) = .ok (c :: s, rest) := by
  rw [readText, h]
  · rfl
  · exact hq
  · rintro rfl
    exact absurd rfl hb
  · rintro _ _ rfl
    exact absurd rfl hb

theorem readText_textChar (c : Char) {s rest tail : List Char}
    (h : readText tail = .ok (s, rest)) :
    readText (textChar c ++ tail) = .ok (c :: s, rest) := by
  have hof (n : Nat) (hc : c.toNat = n) : c = Char.ofNat n := by rw [← hc, Char.ofNat_toNat]
  unfold textChar
  split_ifs with hb hq h8 hf hn hr ht
  · subst hb
    exact readText_escape '\\' h
  · subst hq
    exact readText_escape '"' h
  · rw [hof 0x08 h8]
    exact readText_escape 'b' h
  · rw [hof 0x0c hf]
    exact readText_escape 'f' h
  · subst hn
    exact readText_escape 'n' h
  · subst hr
    exact readText_escape 'r' h
  · subst ht
    exact readText_escape 't' h
  · exact readText_plain hq hb h

/-- A written text is read back up to its closing quote, whatever follows. -/
theorem readText_flatMap (s rest : List Char) :
    readText (s.flatMap textChar ++ '"' :: rest) = .ok (s, rest) := by
  induction s with
  | nil => rfl
  | cons c cs ih =>
    rw [List.flatMap_cons, List.append_assoc]
    exact readText_textChar c ih

/-- Plain characters are read as one atom up to what ends it. -/
theorem readToken_append {token rest : List Char}
    (ht : ∀ c ∈ token, endsAtom c = false ∧ c ≠ '\\' ∧ c ≠ '\'')
    (hr : ∀ c cs, rest = c :: cs → endsAtom c = true ∧ c ≠ '\\') :
    readToken (token ++ rest) = .ok (token, rest) := by
  induction token with
  | nil =>
    cases rest with
    | nil => rfl
    | cons c cs =>
      obtain ⟨he, hb⟩ := hr c cs rfl
      rw [List.nil_append, readToken, if_pos he]
      · rintro rfl
        exact absurd rfl hb
      · rintro _ _ rfl
        exact absurd rfl hb
  | cons c cs ih =>
    obtain ⟨he, hb, -⟩ := ht c List.mem_cons_self
    rw [List.cons_append, readToken, if_neg (by rw [he]; exact Bool.false_ne_true),
      ih fun d hd => ht d (List.mem_cons_of_mem c hd)]
    · rfl
    · rintro rfl
      exact absurd rfl hb
    · rintro _ _ rfl
      exact absurd rfl hb

theorem Plain.write_ne_nil {e : Sexp} (h : e.Plain) : e.write ≠ [] := by
  cases h with
  | symbol atom => exact atom.nonempty
  | text s => simp [write, writeText]
  | list inside => simp [write]

theorem readItems_nil (fuel size : Nat) : readItems fuel size [] = .ok ([], []) := by
  cases fuel <;> rfl

theorem readItems_text (fuel size : Nat) {cs s rest : List Char}
    (h : readText cs = .ok (s, rest)) :
    readItems (fuel + 1) size ('"' :: cs) =
      (readItems fuel size rest).map fun r => (.text (String.ofList s) :: r.1, r.2) := by
  rw [readItems, if_neg (by decide), if_neg (by decide), if_neg (by decide), if_pos rfl, h]
  change (readItems fuel size rest >>= fun r => _) = _
  cases readItems fuel size rest <;> rfl

theorem readItems_list (fuel size : Nat) {cs rest : List Char} {inner : List Sexp}
    (h : readItems fuel size cs = .ok (inner, ')' :: rest)) :
    readItems (fuel + 1) size ('(' :: cs) =
      (readItems fuel size rest).map fun r => (.list inner :: r.1, r.2) := by
  rw [readItems, if_neg (by decide), if_neg (by decide), if_neg (by decide), if_neg (by decide),
    if_pos (by decide), h]
  change (readItems fuel size rest >>= fun r => _) = _
  cases readItems fuel size rest <;> rfl

theorem readItems_atom (fuel size : Nat) {c : Char} {cs token rest : List Char}
    (he : endsAtom c = false) (ha : c ≠ '\'') (h : readToken (c :: cs) = .ok (token, rest)) :
    readItems (fuel + 1) size (c :: cs) =
      (readItems fuel size rest).map fun r => (ofToken token :: r.1, r.2) := by
  simp only [endsAtom, Bool.or_eq_false_iff] at he
  have hm (d : Char) (hd : d ∈ "()[]\";".toList) : c ≠ d := by
    rintro rfl
    exact absurd (List.contains_iff_mem.mpr hd) (by rw [he.1]; exact Bool.false_ne_true)
  rw [readItems, if_neg (by rw [he.2]; exact Bool.false_ne_true), if_neg (hm ';' (by decide)),
    if_neg (by simp [hm ')' (by decide), hm ']' (by decide)]), if_neg (hm '"' (by decide)),
    if_neg (by simp [hm '(' (by decide), hm '[' (by decide)]), if_neg ha, h]
  change (readItems fuel size rest >>= fun r => _) = _
  cases readItems fuel size rest <;> rfl

/-- What may follow a written expression: nothing, or what ends an atom. -/
def Ends (rest : List Char) : Prop := ∀ c cs, rest = c :: cs → endsAtom c = true ∧ c ≠ '\\'

/-- The expression is read back from its writing, and one step of the bound is used up for it. -/
def ReadsBack (e : Sexp) : Prop :=
  ∀ (fuel size : Nat) (rest : List Char), e.write.length ≤ fuel → Ends rest →
    readItems (fuel + 1) size (e.write ++ rest) =
      (readItems fuel size rest).map fun r => (e :: r.1, r.2)

theorem ends_cons {c : Char} (he : endsAtom c = true) (hb : c ≠ '\\') (cs : List Char) :
    Ends (c :: cs) := by
  rintro d ds h
  cases h
  exact ⟨he, hb⟩

theorem writeAll_cons_cons (e e' : Sexp) (es : List Sexp) :
    writeAll (e :: e' :: es) = e.write ++ ' ' :: writeAll (e' :: es) := by
  rw [writeAll]
  simp

/-- Expressions that are read back one by one are read back up to the bracket that closes them. -/
theorem readItems_writeAll {items : List Sexp} (h : ∀ e ∈ items, ReadsBack e ∧ e.write ≠ [])
    (fuel size : Nat) (rest : List Char) (hl : (writeAll items).length < fuel) :
    readItems fuel size (writeAll items ++ ')' :: rest) = .ok (items, ')' :: rest) := by
  -- each item is followed by a blank or by the bracket, and both end an atom
  have hclose (fuel : Nat) : readItems (fuel + 1) size (')' :: rest) = .ok ([], ')' :: rest) := rfl
  induction items generalizing fuel with
  | nil =>
    cases fuel with
    | zero => omega
    | succ fuel => exact hclose fuel
  | cons e es ih =>
    obtain ⟨he, hn⟩ := h e List.mem_cons_self
    have hpos : 0 < e.write.length := List.length_pos_iff.mpr hn
    cases es with
    | nil =>
      rw [writeAll] at hl ⊢
      obtain ⟨fuel, rfl⟩ : ∃ n, fuel = n + 2 := ⟨fuel - 2, by omega⟩
      rw [he (fuel + 1) size _ (by omega) (ends_cons (by decide) (by decide) rest), hclose]
      rfl
    | cons e' es =>
      rw [writeAll_cons_cons, List.length_append, List.length_cons] at hl
      rw [writeAll_cons_cons, List.append_assoc, List.cons_append]
      obtain ⟨fuel, rfl⟩ : ∃ n, fuel = n + 2 := ⟨fuel - 2, by omega⟩
      rw [he (fuel + 1) size _ (by omega) (ends_cons (by decide) (by decide) _)]
      have hrest := ih (fun d hd => h d (List.mem_cons_of_mem e hd)) fuel (by omega)
      change (readItems fuel size _).map _ = _
      rw [hrest]
      rfl

/-- Every plain expression is read back from its writing, whatever follows that ends an atom. -/
theorem Plain.readsBack {e : Sexp} (h : e.Plain) : ReadsBack e := by
  -- by induction on the expression: the items of a list are read back before its bracket
  induction h with
  | @symbol name atom =>
    intro fuel size rest _ hr
    have ht := readToken_append atom.plain hr
    obtain ⟨c, cs, hc⟩ := List.exists_cons_of_ne_nil atom.nonempty
    obtain ⟨he, -, ha⟩ := atom.plain c (by rw [hc]; exact List.mem_cons_self)
    rw [hc, List.cons_append] at ht
    rw [write, hc, List.cons_append, readItems_atom fuel size he ha ht, ← hc, atom.reads]
  | text s =>
    intro fuel size rest _ _
    rw [write, writeText, List.append_assoc, List.cons_append, List.singleton_append,
      readItems_text fuel size (readText_flatMap s.toList rest), String.ofList_toList]
  | @list items inside ih =>
    intro fuel size rest hl _
    have hw : (write (.list items)).length = (writeAll items).length + 2 := by simp [write]
    have hi := readItems_writeAll (fun e he => ⟨ih e he, (inside e he).write_ne_nil⟩) fuel size rest
      (by omega)
    rw [write, List.append_assoc, List.cons_append]
    exact readItems_list fuel size hi

theorem Plain.read_write {e : Sexp} (h : e.Plain) : read (String.ofList e.write) = .ok e := by
  have hr := h.readsBack e.write.length e.write.length [] (Nat.le_refl _) (fun c cs hc => by cases hc)
  rw [List.append_nil, readItems_nil] at hr
  rw [read]
  simp only [String.toList_ofList, hr]
  rfl

end TierHost.Sexp
