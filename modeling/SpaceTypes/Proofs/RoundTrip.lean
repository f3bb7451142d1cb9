import SpaceTypes.Proofs.Grammar

/-!
# Printing and reading written types

A written type has one printed form and many texts that are read as it. The printed form is one of
the texts that the grammar derives for it (`derives_text`), and every other one is the printed form
with blanks put in: dropping the blanks from it gives the printed form back
(`filter_of_derives`). This never joins two words, because a bracket stands between any two.

So reading undoes printing for every type that can be written at all, and printing undoes reading up
to blanks.
-/

namespace SpaceTypes.TypeExpr

open Text

/-- The name under all layers. -/
def innermost : TypeExpr → String
  | basic name => name
  | layer _ base => base.innermost

/-- The text without its blanks. -/
def unspaced (text : String) : String :=
  String.ofList (text.toList.filter fun c => !isBlank c)

/-! ## Dropping blanks -/

theorem Blanks.filter_eq_nil {blanks : List Char} (h : Blanks blanks) :
    blanks.filter (fun c => !isBlank c) = [] :=
  List.filter_eq_nil_iff.2 fun c hc => by simp [h c hc]

theorem IsWord.filter_eq_self {word : List Char} (h : IsWord word) :
    word.filter (fun c => !isBlank c) = word := by
  refine List.filter_eq_self.2 fun c hc => ?_
  cases hblank : isBlank c with
  | false => rfl
  | true =>
    have hname := h.all_isNameChar c hc
    rw [isNameChar_eq_false_of_isBlank hblank] at hname
    cases hname

theorem toList_text_layer (modifier : Modifier) (base : TypeExpr) :
    (layer modifier base).text.toList =
      modifier.name.toList ++ ['<'] ++ base.text.toList ++ ['>'] := by
  simp [text, String.toList_append]

/-- A text of the grammar without its blanks is the printed form of what it derives. -/
theorem filter_of_derives {chars : List Char} {e : TypeExpr} (h : Derives chars e) :
    chars.filter (fun c => !isBlank c) = e.text.toList := by
  induction h with
  | name hbefore hname hafter =>
    rw [List.filter_append, List.filter_append, hbefore.filter_eq_nil, hafter.filter_eq_nil,
      hname.toIsWord.filter_eq_self, text, String.toList_ofList, List.nil_append, List.append_nil]
  | @layer before between inner after modifier base hbefore hbetween hinner hafter ih =>
    have hopen : ['<'].filter (fun c => !isBlank c) = ['<'] := by decide
    have hclose : ['>'].filter (fun c => !isBlank c) = ['>'] := by decide
    simp only [List.filter_append, hbefore.filter_eq_nil, hbetween.filter_eq_nil,
      hafter.filter_eq_nil, (isWord_modifier modifier).filter_eq_self, hopen, hclose, ih,
      toList_text_layer, List.nil_append, List.append_nil]

/-! ## The printed form in the grammar -/

theorem derives_text {e : TypeExpr} (h : IsName e.innermost.toList) : Derives e.text.toList e := by
  induction e with
  | basic name =>
    have hderives := Derives.name .nil h .nil
    rwa [List.nil_append, List.append_nil, String.ofList_toList] at hderives
  | layer modifier base ih =>
    have hderives := @Derives.layer [] [] _ [] modifier base .nil .nil (ih h) .nil
    rwa [List.nil_append, List.append_nil, List.append_nil, ← toList_text_layer] at hderives

theorem isName_innermost {chars : List Char} {e : TypeExpr} (h : Derives chars e) :
    IsName e.innermost.toList := by
  induction h with
  | name hbefore hname hafter =>
    rw [innermost, String.toList_ofList]
    exact hname
  | layer hbefore hbetween hinner hafter ih => exact ih

/-! ## Round trips -/

variable {text : String} {e : TypeExpr}

/-- What a text is read as can be written, and its printed form is the text without blanks. -/
theorem writable_of_parse (h : parse text = .ok e) :
    IsName e.innermost.toList ∧ e.depth ≤ maxDepth ∧ e.text = unspaced text := by
  obtain ⟨last, hread, hlast⟩ := parse_eq_ok_iff.1 h
  obtain ⟨chars, hrest, hderives, hdepth⟩ := derives_of_read hread
  -- only blanks are left after the type
  have hblanks : last.rest = last.run isBlank := by
    conv_lhs => rw [last.rest_eq_run_append isBlank, hlast, List.append_nil]
  refine ⟨isName_innermost hderives, hdepth, ?_⟩
  have htext : text.toList = chars ++ last.run isBlank := by rw [← hblanks]; exact hrest
  rw [unspaced, htext, List.filter_append, filter_of_derives hderives,
    last.blanks_run.filter_eq_nil, List.append_nil, String.ofList_toList]

/-- A written type is read back from its printed form if it can be written at all. -/
theorem parse_text (hname : IsName e.innermost.toList) (hdepth : e.depth ≤ maxDepth) :
    parse e.text = .ok e :=
  parse_eq_ok_iff.2 (read_of_derives (derives_text hname) hdepth (List.append_nil _).symm
    fun _ hch => nomatch hch)

/-- Reading undoes printing exactly for the types over a name with at most 64 layers, and printing
undoes reading up to blanks. What is read has the printed form of the type that it stands for, in
which no property is set. -/
theorem printing_and_reading_inverse {ρ : Type} :
    (∀ e : TypeExpr, parse e.text = .ok e ↔ IsName e.innermost.toList ∧ e.depth ≤ 64) ∧
    ∀ (text : String) (e : TypeExpr), parse text = .ok e →
      e.text = unspaced text ∧ parse e.text = .ok e ∧ (e.toTy : Ty ρ).text = e.text ∧
        ∀ layer ∈ (e.toTy : Ty ρ).chain, layer.recorded = [] := by
  constructor
  · intro e
    constructor
    · intro hparse
      obtain ⟨hname, hdepth, -⟩ := writable_of_parse hparse
      exact ⟨hname, hdepth⟩
    · rintro ⟨hname, hdepth⟩
      exact parse_text hname hdepth
  · intro text e hparse
    obtain ⟨hname, hdepth, htext⟩ := writable_of_parse hparse
    refine ⟨htext, parse_text hname hdepth, e.text_toTy, fun layer hlayer => ?_⟩
    obtain ⟨inner, rfl⟩ := e.exists_toTy_of_mem_chain hlayer
    exact inner.recorded_toTy

/-- A text with blanks of several kinds around every part. -/
theorem spacedQuantum_read_and_printed :
    let text := "\u3000Topology\t< Quantum <größe_1\n> >"
    let e := layer .topology (layer .quantum (basic "größe_1"))
    parse text = .ok e ∧ e.text = unspaced text ∧ parse e.text = .ok e := by
  intro text e
  have hparse : parse text = .ok e := by decide +kernel
  obtain ⟨htext, hagain, -⟩ := (printing_and_reading_inverse (ρ := Empty)).2 text e hparse
  exact ⟨hparse, htext, hagain⟩

end SpaceTypes.TypeExpr
