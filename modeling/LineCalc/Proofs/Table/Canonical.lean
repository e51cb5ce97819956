import LineCalc.Proofs.Number.Texts
import LineCalc.Proofs.Table.Calls
import LineCalc.Proofs.Token.Names

namespace LineCalc

open Number (Same write isTextChar)
open Text (utf8)

namespace Binding

/-- The same name, with the same value. -/
def Alike (a b : Binding) : Prop := a.1 = b.1 ∧ Same a.2 b.2

theorem toList_text (b : Binding) :
    b.text.toList = b.1.toList ++ ':' :: ' ' :: (write b.2).toList := by
  rw [text, String.toList_append, String.toList_append, List.append_assoc]
  rfl

/-- A binding is read off the beginning of a text, where no character of a number comes next. -/
theorem alike_of_text_append {a b : Binding} {rest rest' : List Char}
    (ha : Token.isName a.1 = true) (hb : Token.isName b.1 = true)
    (hrest : ∀ c ∈ rest.head?, isTextChar c = false)
    (hrest' : ∀ c ∈ rest'.head?, isTextChar c = false)
    (h : a.text.toList ++ rest = b.text.toList ++ rest') : Alike a b ∧ rest = rest' := by
  have hcolon : ∀ value rest : List Char,
      ∀ c ∈ (':' :: ' ' :: value ++ rest).head?, isNameChar c = false := by
    rintro value rest c hc
    obtain rfl : ':' = c := Option.some.inj hc
    decide +kernel
  rw [toList_text, toList_text, List.append_assoc, List.append_assoc] at h
  obtain ⟨hname, hvalues⟩ :=
    Text.eq_of_append (fun _ => Token.isNameChar_of_mem_of_isName ha) (hcolon _ rest)
      (fun _ => Token.isNameChar_of_mem_of_isName hb) (hcolon _ rest') h
  obtain ⟨hvalue, heq⟩ :=
    Text.eq_of_append (fun _ => Number.isTextChar_of_mem_write) hrest
      (fun _ => Number.isTextChar_of_mem_write) hrest' (List.cons.inj (List.cons.inj hvalues).2).2
  exact ⟨⟨String.toList_inj.1 hname, Number.write_eq_iff.1 (String.toList_inj.1 hvalue)⟩, heq⟩

/-- Look-ups in alike lists have alike results. -/
theorem lookup_of_alike {as bs : List Binding} (h : List.Forall₂ Alike as bs) (query : String) :
    Option.Rel Same (lookup query as) (lookup query bs) := by
  induction h with
  | nil => exact .none
  | @cons a b as bs hab _ ih =>
    obtain ⟨hname, hvalue⟩ := hab
    rw [lookup, lookup, ← hname]
    split
    · exact .some hvalue
    · exact ih

end Binding

namespace Table

/-- What stands in the text of a table after a binding, if the given ones follow. -/
def textAfter : List Binding → List Char
  | [] => ['\x7d']
  | b :: later => ',' :: ' ' :: (b.text.toList ++ textAfter later)

/-- What stands in the text of a table after the opening brace. -/
def textOf : List Binding → List Char
  | [] => ['\x7d']
  | b :: later => b.text.toList ++ textAfter later

private theorem toList_intercalate_append (bindings : List Binding) :
    (", ".intercalate (bindings.map Binding.text)).toList ++ ['\x7d'] = textOf bindings := by
  induction bindings with
  | nil => rfl
  | cons b later ih =>
    cases later with
    | nil => rw [List.map_singleton, String.intercalate_singleton, textOf, textAfter]
    | cons next later =>
      rw [List.map_cons, List.map_cons, String.intercalate_cons_cons, ← List.map_cons,
        String.toList_append, String.toList_append, List.append_assoc, List.append_assoc, ih]
      rfl

theorem toList_text (t : Table) : t.text.toList = '\x7b' :: textOf t.bindings := by
  rw [text, String.toList_append, String.toList_append, List.append_assoc,
    ← toList_intercalate_append]
  rfl

/-- No character of a number comes after a binding. -/
theorem isTextChar_head?_textAfter (bindings : List Binding) :
    ∀ c ∈ (textAfter bindings).head?, isTextChar c = false := by
  intro c hc
  cases bindings with
  | nil =>
    obtain rfl : '\x7d' = c := Option.some.inj hc
    decide
  | cons b later =>
    obtain rfl : ',' = c := Option.some.inj hc
    decide

/-- What comes after a binding tells the bindings that follow it. -/
theorem alike_of_textAfter {as bs : List Binding} (has : ∀ b ∈ as, Token.isName b.1 = true)
    (hbs : ∀ b ∈ bs, Token.isName b.1 = true) (h : textAfter as = textAfter bs) :
    List.Forall₂ Binding.Alike as bs := by
  induction as generalizing bs with
  | nil =>
    cases bs with
    | nil => exact .nil
    | cons b bs => cases h
  | cons a as ih =>
    obtain ⟨ha, has⟩ := List.forall_mem_cons.1 has
    cases bs with
    | nil => cases h
    | cons b bs =>
      obtain ⟨hb, hbs⟩ := List.forall_mem_cons.1 hbs
      obtain ⟨hab, hrest⟩ := Binding.alike_of_text_append ha hb (isTextChar_head?_textAfter as)
        (isTextChar_head?_textAfter bs) (List.cons.inj (List.cons.inj h).2).2
      exact .cons hab (ih has hbs hrest)

/-- The text of a binding does not begin like the end of a table. -/
theorem brace_ne_text_append {b : Binding} (hb : Token.isName b.1 = true) (rest : List Char) :
    ['\x7d'] ≠ b.text.toList ++ rest := by
  obtain ⟨first, later, hchars, -⟩ := Token.exists_toList_eq_cons_of_isName hb
  intro h
  rw [Binding.toList_text, hchars] at h
  obtain ⟨rfl, -⟩ := List.cons.inj h
  have hchar := Token.isNameChar_of_mem_of_isName hb (hchars ▸ List.mem_cons_self ..)
  revert hchar
  decide +kernel

private theorem alike_of_textOf {as bs : List Binding} (has : ∀ b ∈ as, Token.isName b.1 = true)
    (hbs : ∀ b ∈ bs, Token.isName b.1 = true) (h : textOf as = textOf bs) :
    List.Forall₂ Binding.Alike as bs := by
  cases as with
  | nil =>
    cases bs with
    | nil => exact .nil
    | cons b bs => exact absurd h (brace_ne_text_append (hbs b (List.mem_cons_self ..)) _)
  | cons a as =>
    cases bs with
    | nil => exact absurd h.symm (brace_ne_text_append (has a (List.mem_cons_self ..)) _)
    | cons b bs =>
      -- With a separator before it, the text of the bindings is what comes after one more.
      exact alike_of_textAfter has hbs (congrArg (fun text => ',' :: ' ' :: text) h)

private theorem fetch_eq_ok_iff {t : Table} {name : String} {value : Float} :
    t.fetch name = .ok value ↔ (name, value) ∈ t.bindings := by
  rw [mem_bindings_iff, fetch]
  cases t.get? name <;> simp

private theorem fetch_eq_error_iff {t : Table} {name : String} :
    t.fetch name = .error (.unboundName name) ↔ t.contains name = false := by
  rw [contains, fetch]
  cases t.get? name <;> simp

/-- A table is shown in one way. After any calls that bind a name each, made on a new table, the
table lists each of the names once, in the order of their bytes in UTF-8, with the value of the last
call for it; look-ups agree with the list, which is also what sorting gives, in whatever order a map
that holds the same bindings would list them. Calls that come to the same last values come to the
same list and the same text. And two tables that bind only names and have the same text bind the
same names to the same values, where all that is no number counts as one value. -/
theorem canonical :
    (∀ calls : List Binding,
      let t := empty.insertAll calls
      t.bindings.Pairwise (fun a b => utf8 a.1 < utf8 b.1) ∧
      (∀ name, (t.bindings.map Prod.fst).count name =
        if name ∈ calls.map Prod.fst then 1 else 0) ∧
      (∀ name value, (name, value) ∈ t.bindings ↔ IsLast calls name value) ∧
      (∀ name value, t.fetch name = .ok value ↔ (name, value) ∈ t.bindings) ∧
      (∀ name, t.fetch name = .error (.unboundName name) ↔ t.contains name = false) ∧
      (∀ name, t.contains name = true ↔ name ∈ t.bindings.map Prod.fst) ∧
      ∀ entries : List Binding, entries.Perm t.bindings →
        (entries.mergeSort fun a b => utf8 a.1 ≤ utf8 b.1) = t.bindings) ∧
    (∀ calls calls' : List Binding,
      (∀ name value, IsLast calls name value ↔ IsLast calls' name value) →
      (empty.insertAll calls).bindings = (empty.insertAll calls').bindings ∧
      (empty.insertAll calls).text = (empty.insertAll calls').text) ∧
    ∀ t t' : Table, (∀ b ∈ t.bindings, Token.isName b.1 = true) →
      (∀ b ∈ t'.bindings, Token.isName b.1 = true) → t.text = t'.text →
      List.Forall₂ Binding.Alike t.bindings t'.bindings ∧
      ∀ name, Option.Rel Same (t.get? name) (t'.get? name) := by
  refine ⟨fun calls => ?_, fun calls calls' h => ?_, fun t t' hnames hnames' h => ?_⟩
  · intro t
    have hcount (name : String) : (t.bindings.map Prod.fst).count name =
        if name ∈ calls.map Prod.fst then 1 else 0 := by
      rw [count_name]
      exact if_congr (mem_names_iff.trans contains_insertAll_iff) rfl rfl
    have hmem (name : String) (value : Float) :
        (name, value) ∈ t.bindings ↔ IsLast calls name value :=
      mem_bindings_iff.trans get?_insertAll_iff
    exact ⟨t.ascending_utf8, hcount, hmem, fun _ _ => fetch_eq_ok_iff, fun _ => fetch_eq_error_iff,
      fun _ => mem_names_iff.symm, fun _ => mergeSort_eq_bindings⟩
  · have heq := insertAll_eq_of_isLast_iff h
    exact ⟨congrArg bindings heq, congrArg text heq⟩
  · rw [← String.toList_inj, toList_text, toList_text] at h
    have halike := alike_of_textOf hnames hnames' (List.cons.inj h).2
    exact ⟨halike, Binding.lookup_of_alike halike⟩

/-- Two names are bound, one of them twice, and in another order with the last values only. The two
tables have the same text, and what they hold in reverse is sorted to their list. -/
theorem canonical_overwritten :
    let calls : List Binding := [("b", 1), ("a", 2), ("b", 3)]
    let calls' : List Binding := [("b", 3), ("a", 2)]
    (empty.insertAll calls).text = (empty.insertAll calls').text ∧
      ([("b", 3), ("a", 2)].mergeSort fun a b : Binding => utf8 a.1 ≤ utf8 b.1) =
        [("a", 2), ("b", 3)] ∧
      Option.Rel Same ((empty.insertAll calls).get? "b") (some 3) := by
  intro calls calls'
  have hbindings : (empty.insertAll calls).bindings = [("a", 2), ("b", 3)] := by decide +kernel
  have hbindings' : (empty.insertAll calls').bindings = [("a", 2), ("b", 3)] := by decide +kernel
  have hnames : ∀ b ∈ [("a", (2 : Float)), ("b", 3)], Token.isName b.1 = true := by decide +kernel
  have heq : empty.insertAll calls = empty.insertAll calls' := by decide +kernel
  obtain ⟨hcalls, hsame, htexts⟩ := canonical
  obtain ⟨-, -, -, -, -, -, hsort⟩ := hcalls calls
  obtain ⟨-, htext⟩ := hsame calls calls' fun name value => by
    rw [← get?_insertAll_iff, ← get?_insertAll_iff, heq]
  obtain ⟨-, hvalue⟩ := htexts (empty.insertAll calls) (empty.insertAll calls')
    (hbindings ▸ hnames) (hbindings' ▸ hnames) htext
  rw [hbindings] at hsort
  exact ⟨htext, hsort _ (List.Perm.swap ..), hvalue "b"⟩

end Table

end LineCalc
