import Circuit.Proofs.Canonical.Amount
import Circuit.Proofs.Field.Compact
import Circuit.Proofs.Statement.Equality
import Circuit.Proofs.Variable.Text
import Circuit.Statement.Text

/-!
# Constraints told apart by their texts

The text of a constraint can be read in one way only: a coefficient goes as far as the next blank, a variable as
far as the next blank or closing parenthesis, a combination as far as the parenthesis that closes it, and what
comes next is the same for all constraints. Hence constraints with coefficients in one field are equal exactly if
their texts are.

* `Term.text_append_inj`, `LinComb.text_append_inj` and `QuadComb.text_append_inj`: whatever follows, the text of
  a part tells which part it is, and where it ends.
* `LinComb.same_iff_eq`: over one field, equality compares all there is.
* `Constraint.text_identifies` puts these together.
-/

namespace Circuit

open Circuit.Text Circuit.Decimal

/-! ### Terms -/

/-- Whether a character belongs to a coefficient: it is no blank. -/
def inCoefficient (c : Char) : Bool := c ≠ ' '

/-- Whether a character belongs to a variable: it is neither a blank nor a closing parenthesis. -/
def inVariable (c : Char) : Bool := c ≠ ' ' && c ≠ ')'

/-- A blank or a closing parenthesis follows, or nothing. -/
def EndsVariable (rest : List Char) : Prop := ∀ c ∈ rest.head?, inVariable c = false

/-- A closing parenthesis follows, or nothing. -/
def EndsComb (rest : List Char) : Prop := ∀ c ∈ rest.head?, c = ')'

theorem endsComb_nil : EndsComb [] := nofun

theorem EndsComb.endsVariable {rest : List Char} (ends : EndsComb rest) : EndsVariable rest := by
  intro c first
  rw [ends c first]
  rfl

theorem inVariable_of_isDigit {c : Char} (digit : c.isDigit = true) : inVariable c = true := by
  unfold inVariable
  have blank : c ≠ ' ' := by
    rintro rfl
    exact absurd digit (by decide)
  have paren : c ≠ ')' := by
    rintro rfl
    exact absurd digit (by decide)
  simp [blank, paren]

theorem inVariable_of_mem_digits {n : Nat} : ∀ c ∈ digits n, inVariable c = true :=
  fun _ member => inVariable_of_isDigit (isDigit_of_mem_digits member)

theorem inCoefficient_of_inVariable {c : Char} (h : inVariable c = true) : inCoefficient c = true := by
  unfold inVariable at h
  exact (Bool.and_eq_true_iff.1 h).1

theorem Variable.inVariable_of_mem_text (v : Variable) : ∀ c ∈ v.text.toList, inVariable c = true := by
  cases v with
  | one => simp [toList_text_one, inVariable]
  | pub index =>
    rw [toList_text_pub]
    simpa [inVariable] using inVariable_of_mem_digits (n := index)
  | loc id positive =>
    rw [toList_text_loc]
    simpa [inVariable] using inVariable_of_mem_digits (n := id)

theorem inCoefficient_of_mem_shown (n : Int) : ∀ c ∈ shown n, inCoefficient c = true := by
  have of_digits : ∀ n, ∀ c ∈ digits n, inCoefficient c = true := fun n c member =>
    inCoefficient_of_inVariable (inVariable_of_mem_digits c member)
  cases n with
  | ofNat n => exact of_digits n
  | negSucc n =>
    refine List.forall_mem_cons.2 ⟨rfl, List.forall_mem_cons.2 ⟨rfl, ?_⟩⟩
    exact List.forall_mem_append.2 ⟨of_digits (n + 1), List.forall_mem_singleton.2 rfl⟩

namespace Term

variable {t u : Term} {rest rest' : List Char}

theorem toList_text_append (t : Term) (rest : List Char) : t.text.toList ++ rest =
    shown t.coeff.centered ++ ' ' :: '*' :: ' ' :: (t.var.text.toList ++ rest) := by
  simp [text, ← Element.toList_compact]

/-- The text of a term tells the term, and where it ends. -/
theorem text_append_inj (field : t.coeff.field = u.coeff.field) (ends : EndsVariable rest)
    (ends' : EndsVariable rest') (same : t.text.toList ++ rest = u.text.toList ++ rest') :
    t = u ∧ rest = rest' := by
  rw [toList_text_append, toList_text_append] at same
  obtain ⟨coefficients, same⟩ := append_inj_of_stop (inCoefficient_of_mem_shown _)
    (inCoefficient_of_mem_shown _) (by simp [inCoefficient]) (by simp [inCoefficient]) same
  simp only [List.cons.injEq, true_and] at same
  obtain ⟨names, rests⟩ := append_inj_of_stop t.var.inVariable_of_mem_text u.var.inVariable_of_mem_text
    ends ends' same
  have coeff : t.coeff = u.coeff := by
    rw [← Element.compact_inj field, ← String.toList_inj, Element.toList_compact, Element.toList_compact,
      coefficients]
  have var : t.var = u.var := Variable.text_inj.1 (String.toList_inj.1 names)
  refine ⟨?_, rests⟩
  show mk t.var t.coeff = mk u.var u.coeff
  rw [coeff, var]

/-- A zero that ends a combination does not begin a term. -/
theorem zero_ne_text (ends : EndsComb rest) : '0' :: rest ≠ t.text.toList ++ rest' := by
  rw [toList_text_append]
  cases t.coeff.centered with
  | negSucc n => simp [shown]
  | ofNat n =>
    intro same
    have members : ∀ c ∈ ['0'], inVariable c = true := List.forall_mem_singleton.2 rfl
    obtain ⟨-, tail⟩ := append_inj_of_stop members inVariable_of_mem_digits ends.endsVariable
      (by simp [inVariable]) same
    have paren : ' ' = ')' := ends ' ' (by simp [tail])
    exact absurd paren (by decide)

end Term

/-! ### Combinations -/

namespace LinComb

def furtherTerms : List Term → List Char
  | [] => []
  | t :: rest => ' ' :: '+' :: ' ' :: (t.text.toList ++ furtherTerms rest)

theorem toList_text_cons (t : Term) (ts : List Term) :
    (text ⟨t :: ts⟩).toList = t.text.toList ++ furtherTerms ts := by
  have joined : (String.intercalate " + " ((t :: ts).map Term.text)).toList =
      t.text.toList ++ furtherTerms ts := by
    rw [String.toList_intercalate]
    induction ts generalizing t with
    | nil => simp [furtherTerms]
    | cons u us ih =>
      simp only [List.map_cons, List.intercalate_cons_cons] at ih ⊢
      rw [ih u]
      simp [furtherTerms]
  exact joined

variable {F : Field} {a b : LinComb} {ts us : List Term} {rest rest' : List Char}

/-- What follows a term is a blank or the end of the combination. -/
theorem endsVariable_furtherTerms (ends : EndsComb rest) : EndsVariable (furtherTerms ts ++ rest) := by
  cases ts with
  | nil => exact ends.endsVariable
  | cons t ts => simp [EndsVariable, furtherTerms, inVariable]

/-- Induction on the terms of one side; each term is told with what follows it. -/
theorem furtherTerms_append_inj (ts_over : Over F ⟨ts⟩) (us_over : Over F ⟨us⟩) (ends : EndsComb rest)
    (ends' : EndsComb rest') (same : furtherTerms ts ++ rest = furtherTerms us ++ rest') :
    ts = us ∧ rest = rest' := by
  have blank_ne : ∀ {r s : List Char}, EndsComb r → r ≠ ' ' :: s := by
    rintro r s ends rfl
    exact absurd (ends ' ' rfl) (by decide)
  induction ts generalizing us with
  | nil =>
    cases us with
    | nil => exact ⟨rfl, same⟩
    | cons u us => exact absurd same (blank_ne ends)
  | cons t ts ih =>
    cases us with
    | nil => exact absurd same.symm (blank_ne ends')
    | cons u us =>
      obtain ⟨t_field, others⟩ := List.forall_mem_cons.1 ts_over
      obtain ⟨u_field, others'⟩ := List.forall_mem_cons.1 us_over
      simp only [furtherTerms, List.cons_append, List.cons.injEq, true_and, List.append_assoc] at same
      obtain ⟨rfl, tails⟩ := Term.text_append_inj (t_field.trans u_field.symm)
        (endsVariable_furtherTerms ends) (endsVariable_furtherTerms ends') same
      obtain ⟨rfl, rests⟩ := ih others others' tails
      exact ⟨rfl, rests⟩

/-- The text of a combination tells the combination, and where it ends. -/
theorem text_append_inj (a_over : a.Over F) (b_over : b.Over F) (ends : EndsComb rest)
    (ends' : EndsComb rest') (same : a.text.toList ++ rest = b.text.toList ++ rest') :
    a = b ∧ rest = rest' := by
  obtain ⟨ts⟩ := a
  obtain ⟨us⟩ := b
  cases ts with
  | nil =>
    cases us with
    | nil => exact ⟨rfl, List.append_cancel_left same⟩
    | cons u us =>
      rw [toList_text_cons, List.append_assoc] at same
      exact absurd same (Term.zero_ne_text ends)
  | cons t ts =>
    cases us with
    | nil =>
      rw [toList_text_cons, List.append_assoc] at same
      exact absurd same.symm (Term.zero_ne_text ends')
    | cons u us =>
      -- With a plus in front these are further terms.
      have further : furtherTerms (t :: ts) ++ rest = furtherTerms (u :: us) ++ rest' := by
        rw [furtherTerms, furtherTerms, ← toList_text_cons, ← toList_text_cons]
        simp only [List.cons_append, same]
      obtain ⟨terms, rests⟩ := furtherTerms_append_inj a_over b_over ends ends' further
      exact ⟨congrArg mk terms, rests⟩

/-- The text of a combination tells its terms. -/
theorem text_inj (a_over : a.Over F) (b_over : b.Over F) : a.text = b.text ↔ a = b := by
  constructor
  · intro same
    have chars : a.text.toList ++ [] = b.text.toList ++ [] := by rw [same]
    exact (text_append_inj a_over b_over endsComb_nil endsComb_nil chars).1
  · exact congrArg text

/-- The key of a combination over a field has all its terms. -/
theorem terms_eq (a_over : a.Over F) : a.terms = a.key.map fun k => ⟨k.1, F.element k.2⟩ := by
  have each : ∀ t ∈ a.terms, t = ⟨t.var, F.element t.coeff.value⟩ := by
    intro t member
    rw [← a_over t member, Field.element_ofValue]
  calc a.terms
      = a.terms.map id := (List.map_id _).symm
    _ = a.terms.map ((fun k => ⟨k.1, F.element k.2⟩) ∘ Term.key) := List.map_congr_left each
    _ = a.key.map fun k => ⟨k.1, F.element k.2⟩ := (List.map_map ..).symm

/-- Over one field, equality compares all there is. -/
theorem same_iff_eq (a_over : a.Over F) (b_over : b.Over F) : a.same b = true ↔ a = b := by
  rw [same, decide_eq_true_eq]
  constructor
  · intro keys
    have terms : a.terms = b.terms := by rw [terms_eq a_over, keys, ← terms_eq b_over]
    cases a
    exact congrArg mk terms
  · exact congrArg key

end LinComb

/-! ### Products -/

namespace QuadComb

def Over (F : Field) (q : QuadComb) : Prop := q.left.Over F ∧ q.right.Over F

def string (q : QuadComb) : String := "(" ++ q.left.text ++ ") * (" ++ q.right.text ++ ")"

theorem text_eq (q : QuadComb) : q.text = ofString q.string := by
  simp only [text, join, string, ofString_append]

theorem toList_string_append (q : QuadComb) (rest : List Char) : q.string.toList ++ rest =
    '(' :: (q.left.text.toList ++ ')' :: ' ' :: '*' :: ' ' :: '(' :: (q.right.text.toList ++ ')' :: rest)) := by
  simp [string]

variable {F : Field} {p q : QuadComb} {rest rest' : List Char}

/-- The text of a product tells the product, and where it ends. -/
theorem string_append_inj (p_over : p.Over F) (q_over : q.Over F)
    (same : p.string.toList ++ rest = q.string.toList ++ rest') : p = q ∧ rest = rest' := by
  have closed : ∀ rest : List Char, EndsComb (')' :: rest) := by simp [EndsComb]
  rw [toList_string_append, toList_string_append] at same
  obtain ⟨left, same⟩ :=
    LinComb.text_append_inj p_over.1 q_over.1 (closed _) (closed _) (List.cons.inj same).2
  -- Between the two sides stands the same in all products.
  simp only [List.cons.injEq, true_and] at same
  obtain ⟨right, same⟩ := LinComb.text_append_inj p_over.2 q_over.2 (closed _) (closed _) same
  refine ⟨?_, (List.cons.inj same).2⟩
  show mk p.left p.right = mk q.left q.right
  rw [left, right]

theorem text_inj (p_over : p.Over F) (q_over : q.Over F) : p.text = q.text ↔ p = q := by
  rw [text_eq, text_eq, ofString_inj]
  constructor
  · intro same
    have chars : p.string.toList ++ [] = q.string.toList ++ [] := by rw [same]
    exact (string_append_inj p_over q_over chars).1
  · exact congrArg string

theorem same_iff_eq (p_over : p.Over F) (q_over : q.Over F) : p.same q = true ↔ p = q := by
  rw [same, Bool.and_eq_true, LinComb.same_iff_eq p_over.1 q_over.1, LinComb.same_iff_eq p_over.2 q_over.2]
  cases p
  cases q
  simp

end QuadComb

/-! ### Constraints -/

namespace Constraint

def Over (F : Field) (c : Constraint) : Prop := c.quad.Over F ∧ c.lin.Over F

theorem text_of_untagged {c : Constraint} (untagged : c.tag = none) : c.text = .ok c.equation := by
  rw [text, untagged]

theorem equation_eq (c : Constraint) : c.equation = ofString (c.quad.string ++ " == " ++ c.lin.text) := by
  simp only [equation, join, QuadComb.text_eq, ofString_append]

variable {F : Field} {c d : Constraint}

/-- An equation tells both sides: the text of the product ends at its last parenthesis. -/
theorem equation_inj (c_over : c.Over F) (d_over : d.Over F) :
    c.equation = d.equation ↔ c.quad = d.quad ∧ c.lin = d.lin := by
  rw [equation_eq, equation_eq, ofString_inj]
  constructor
  · intro same
    have chars := congrArg String.toList same
    simp only [String.toList_append, List.append_assoc] at chars
    obtain ⟨quads, rests⟩ := QuadComb.string_append_inj c_over.1 d_over.1 chars
    have lins : c.lin.text = d.lin.text := String.toList_inj.1 (by simpa using rests)
    exact ⟨quads, (LinComb.text_inj c_over.2 d_over.2).1 lins⟩
  · intro ⟨quads, lins⟩
    rw [quads, lins]

theorem same_iff_eq (c_over : c.Over F) (d_over : d.Over F) :
    c.same d = true ↔ c.quad = d.quad ∧ c.lin = d.lin := by
  rw [same, Bool.and_eq_true, QuadComb.same_iff_eq c_over.1 d_over.1, LinComb.same_iff_eq c_over.2 d_over.2]

/-- Constraints over one field and without tags are equal exactly if their texts are. A coefficient is shown as
the integer of least absolute value that it stands for, and coefficients, combinations and products over one
field are told apart by their texts as well. -/
theorem text_identifies (F : Field) :
    (∀ c d : Constraint, c.Over F → d.Over F → c.tag = none → d.tag = none →
      ∃ s t, c.text = .ok s ∧ d.text = .ok t ∧ (s = t ↔ c.same d = true)) ∧
    (∀ x : Element, x.field = F → F.modulus ≤ 10 ^ digitLimit →
      ∃ n, (∀ m, Shows x.compact.toList m ↔ m = n) ∧ n ≡ x.toInt [ZMOD F.modulus] ∧
        2 * n.natAbs ≤ F.modulus) ∧
    (∀ x y : Element, x.field = F → y.field = F → (x.compact = y.compact ↔ x = y)) ∧
    (∀ a b : LinComb, a.Over F → b.Over F → (a.text = b.text ↔ a.same b = true)) ∧
    ∀ p q : QuadComb, p.Over F → q.Over F → (p.text = q.text ↔ p.same q = true) := by
  refine ⟨?_, ?_, ?_, ?_, ?_⟩
  · intro c d c_over d_over c_untagged d_untagged
    refine ⟨_, _, text_of_untagged c_untagged, text_of_untagged d_untagged, ?_⟩
    rw [equation_inj c_over d_over, same_iff_eq c_over d_over]
  · rintro x rfl short
    exact ⟨_, fun _ => x.shows_compact_iff short, x.centered_modEq, x.centered_bound⟩
  · intro x y x_own y_own
    exact Element.compact_inj (x_own.trans y_own.symm)
  · intro a b a_over b_over
    rw [LinComb.text_inj a_over b_over, LinComb.same_iff_eq a_over b_over]
  · intro p q p_over q_over
    rw [QuadComb.text_inj p_over q_over, QuadComb.same_iff_eq p_over q_over]

/-- The negative of a local variable, as a product with nothing and as the result. -/
def negated : Constraint :=
  ⟨⟨⟨[⟨.loc 1 Nat.one_pos, Field.scalars.element (-1)⟩]⟩, ⟨[]⟩⟩,
    ⟨[⟨.loc 1 Nat.one_pos, Field.scalars.element (-1)⟩]⟩, none⟩

/-- The same with the sides of the product exchanged. -/
def negatedSwapped : Constraint := ⟨⟨negated.quad.right, negated.quad.left⟩, negated.lin, none⟩

/-- The two constraints have different texts, since they are not equal; so have their products, and the sides
of these. The coefficient is not shown as one is. -/
theorem text_identifies_negated :
    (negated.Over Field.scalars ∧ negatedSwapped.Over Field.scalars ∧ negated.tag = none ∧
      negatedSwapped.tag = none ∧ ∃ s t, negated.text = .ok s ∧ negatedSwapped.text = .ok t ∧ s ≠ t) ∧
    ((Field.scalars.element (-1)).field = Field.scalars ∧ Field.scalars.modulus ≤ 10 ^ digitLimit ∧
      ∃ n, (∀ m, Shows (Field.scalars.element (-1)).compact.toList m ↔ m = n) ∧
        n ≡ (Field.scalars.element (-1)).toInt [ZMOD Field.scalars.modulus] ∧
        2 * n.natAbs ≤ Field.scalars.modulus) ∧
    (Field.scalars.element (-1)).compact ≠ (Field.scalars.element 1).compact ∧
    negated.quad.left.text ≠ negated.quad.right.text ∧
    negated.quad.text ≠ negatedSwapped.quad.text := by
  obtain ⟨constraints, shown, elements, combinations, products⟩ := text_identifies Field.scalars
  have negated_over : negated.Over Field.scalars :=
    ⟨⟨List.forall_mem_singleton.2 rfl, List.forall_mem_nil _⟩, List.forall_mem_singleton.2 rfl⟩
  have swapped_over : negatedSwapped.Over Field.scalars :=
    ⟨⟨negated_over.1.2, negated_over.1.1⟩, negated_over.2⟩
  obtain ⟨s, t, s_text, t_text, iff⟩ := constraints negated negatedSwapped negated_over swapped_over rfl rfl
  refine ⟨⟨negated_over, swapped_over, rfl, rfl, s, t, s_text, t_text, ?_⟩,
    ⟨rfl, Field.short_scalars, shown _ rfl Field.short_scalars⟩, ?_, ?_, ?_⟩
  · rw [Ne, iff]
    decide +kernel
  · rw [Ne, elements _ _ rfl rfl]
    decide +kernel
  · rw [Ne, combinations _ _ negated_over.1.1 negated_over.1.2]
    decide +kernel
  · rw [Ne, products _ _ negated_over.1 swapped_over.1]
    decide +kernel

end Constraint

end Circuit
