import PhpTaint.Syntax.Shape

/-!
# Kinds behind forms and constructs

Some forms belong to one grammar symbol only, so the form of a node tells its
kind.
-/

namespace PhpTaint.Syntax

theorem Form.eq_argument_iff {kind : String} : Form.ofKind kind = .argument ↔ kind = "argument" := by
  constructor
  · intro form
    unfold Form.ofKind at form
    split at form <;> first | rfl | cases form
  · rintro rfl
    rfl

theorem Form.eq_variableName_iff {kind : String} :
    Form.ofKind kind = .variableName ↔ kind = "variable_name" := by
  constructor
  · intro form
    unfold Form.ofKind at form
    split at form <;> first | rfl | cases form
  · rintro rfl
    rfl

theorem Construct.eq_assignment_of_form {kind : String} (form : Form.ofKind kind = .assignment) :
    Construct.ofKind kind = .assignment := by
  unfold Form.ofKind at form
  split at form <;> first | rfl | cases form

/-- Apart from assignments, calls and what data flow does not follow, the forms have
no effect on scopes. -/
theorem Construct.eq_plain_of_form {kind : String} (notAssignment : Form.ofKind kind ≠ .assignment)
    (notCall : Form.ofKind kind ≠ .call) (followed : Form.ofKind kind ≠ .other) :
    Construct.ofKind kind = .plain := by
  have forms : Construct.ofKind kind = .plain ∨ Form.ofKind kind = .assignment ∨
      Form.ofKind kind = .call ∨ Form.ofKind kind = .other := by
    unfold Form.ofKind
    split <;>
      first
      | exact Or.inl rfl
      | exact Or.inr (Or.inl rfl)
      | exact Or.inr (Or.inr (Or.inl rfl))
      | exact Or.inr (Or.inr (Or.inr rfl))
  simpa [notAssignment, notCall, followed] using forms

theorem Node.isVariable_iff {node : Node} : node.isVariable = true ↔ node.form = .variableName := by
  unfold isVariable form
  rw [Form.eq_variableName_iff, decide_eq_true_iff]

end PhpTaint.Syntax
