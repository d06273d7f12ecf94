import HtmlConformance.Proofs.Lists
import HtmlConformance.State

namespace HtmlConformance

/-! Laws of joining: version sets under intersection and defect sets under union, findings
under `++`, what is in reach of a check, and how a pass takes findings in. -/

/-! ## Sets of flags -/

namespace FlagSet

variable {α : Type} [Enumerated α] [DecidableEq α]

theorem inter_assoc (first second third : FlagSet α) :
    first ∩ second ∩ third = first ∩ (second ∩ third) :=
  ext fun value => by simp [Bool.and_assoc]

theorem inter_comm (left right : FlagSet α) : left ∩ right = right ∩ left :=
  ext fun value => by simp [Bool.and_comm]

theorem inter_left_comm (first second third : FlagSet α) :
    first ∩ (second ∩ third) = second ∩ (first ∩ third) :=
  ext fun value => by simp [Bool.and_left_comm]

@[simp] theorem empty_inter (set : FlagSet α) : ∅ ∩ set = ∅ :=
  ext fun value => by simp

@[simp] theorem inter_empty (set : FlagSet α) : set ∩ ∅ = ∅ :=
  ext fun value => by simp

@[simp] theorem inter_self (set : FlagSet α) : set ∩ set = set :=
  ext fun value => by simp

theorem union_assoc (first second third : FlagSet α) :
    first ∪ second ∪ third = first ∪ (second ∪ third) :=
  ext fun value => by simp [Bool.or_assoc]

theorem union_comm (left right : FlagSet α) : left ∪ right = right ∪ left :=
  ext fun value => by simp [Bool.or_comm]

@[simp] theorem empty_diff (set : FlagSet α) : (∅ : FlagSet α) \ set = ∅ :=
  ext fun value => by simp

theorem union_diff (left right removed : FlagSet α) :
    (left ∪ right) \ removed = left \ removed ∪ right \ removed :=
  ext fun value => by simp [Bool.and_or_distrib_right]

theorem intersects_only (set : FlagSet α) (value : α) :
    set.intersects (.only value) = set.contains value := by
  rw [intersects, isEmpty, Bool.eq_iff_iff, Bool.not_eq_true', beq_eq_false_iff_ne]
  constructor
  · intro shared
    by_contra missing
    apply shared
    apply ext
    intro other
    rw [contains_inter, contains_only, contains_empty]
    by_cases same : other = value
    · subst same
      simp [missing]
    · simp [same]
  · intro member none
    have here := congrArg (fun set => contains set value) none
    simp [member] at here

theorem inter_eq_left_iff (left right : FlagSet α) :
    left ∩ right = left ↔
      ∀ value, left.contains value = true → right.contains value = true := by
  constructor
  · intro equal value member
    rw [← equal, contains_inter] at member
    exact (Bool.and_eq_true_iff.mp member).2
  · intro included
    apply ext
    intro value
    rw [contains_inter]
    cases member : left.contains value with
    | false => rfl
    | true => simp [included value member]

section

variable {left right bound : FlagSet α}

theorem isSubset_iff :
    left.isSubset right = true ↔
      ∀ value, left.contains value = true → right.contains value = true := by
  rw [isSubset, isEmpty, beq_iff_eq]
  constructor
  · intro nothing value member
    have here := congrArg (fun set => contains set value) nothing
    simpa [member] using here
  · intro included
    apply ext
    intro value
    cases member : left.contains value with
    | false => simp [member]
    | true => simp [included value member]

theorem isSubset_inter_left (within : left.isSubset bound = true) (right : FlagSet α) :
    (left ∩ right).isSubset bound = true := by
  rw [isSubset_iff] at within ⊢
  intro value member
  rw [contains_inter, Bool.and_eq_true] at member
  exact within value member.1

theorem isSubset_inter_right (within : right.isSubset bound = true) (left : FlagSet α) :
    (left ∩ right).isSubset bound = true := by
  rw [inter_comm]
  exact isSubset_inter_left within left

theorem eq_empty_of_isSubset (within : left.isSubset ∅ = true) : left = ∅ := by
  apply ext
  intro value
  rw [contains_empty, ← Bool.not_eq_true]
  intro member
  have listed := isSubset_iff.mp within value member
  rw [contains_empty] at listed
  cases listed

theorem empty_isSubset (bound : FlagSet α) : (∅ : FlagSet α).isSubset bound = true := by
  rw [isSubset_iff]
  intro value member
  rw [contains_empty] at member
  cases member

end

end FlagSet

@[simp] theorem VersionSet.everything_inter (versions : VersionSet) :
    VersionSet.everything ∩ versions = versions :=
  FlagSet.full_inter versions

@[simp] theorem VersionSet.inter_everything (versions : VersionSet) :
    versions ∩ VersionSet.everything = versions :=
  FlagSet.inter_full versions

@[simp] theorem VersionSet.contains_everything (version : Version) :
    VersionSet.everything.contains version = true :=
  FlagSet.contains_full version

/-! ## Findings -/

namespace Findings

variable (first second third findings : Findings)

@[simp] theorem allowed_append :
    (first ++ second).allowed = first.allowed ∩ second.allowed := rfl
@[simp] theorem defects_append :
    (first ++ second).defects = first.defects ∪ second.defects := rfl
@[simp] theorem xhtml_append : (first ++ second).xhtml = (first.xhtml || second.xhtml) := rfl
@[simp] theorem diagnostics_append :
    (first ++ second).diagnostics = first.diagnostics ++ second.diagnostics := rfl
@[simp] theorem warnings_append :
    (first ++ second).warnings = first.warnings ++ second.warnings := rfl

@[simp] theorem allowed_narrow (versions : VersionSet) :
    (narrow versions).allowed = versions := rfl
@[simp] theorem allowed_raise (diagnostic : Diagnostic) :
    (raise diagnostic).allowed = .everything := rfl
@[simp] theorem allowed_flag (defect : Defect) : (flag defect).allowed = .everything := rfl
@[simp] theorem allowed_namespaced : namespaced.allowed = .everything := rfl

@[simp] theorem defects_narrow (versions : VersionSet) : (narrow versions).defects = ∅ := rfl
@[simp] theorem defects_raise (diagnostic : Diagnostic) : (raise diagnostic).defects = ∅ := rfl
@[simp] theorem defects_flag (defect : Defect) : (flag defect).defects = .only defect := rfl

theorem allowed_ite (condition : Prop) [Decidable condition] :
    (if condition then first else second).allowed =
      if condition then first.allowed else second.allowed :=
  apply_ite Findings.allowed condition first second

theorem contains_defects_ite (condition : Prop) [Decidable condition] (defect : Defect) :
    (if condition then first else second).defects.contains defect =
      if condition then first.defects.contains defect else second.defects.contains defect :=
  apply_ite (fun findings : Findings => findings.defects.contains defect) condition first second

theorem ext {left right : Findings} (allowed : left.allowed = right.allowed)
    (defects : left.defects = right.defects) (xhtml : left.xhtml = right.xhtml)
    (diagnostics : left.diagnostics = right.diagnostics)
    (warnings : left.warnings = right.warnings) : left = right := by
  cases left
  cases right
  simp_all

@[simp] theorem empty_append : ∅ ++ findings = findings :=
  ext (by simp) (by simp) (by simp) (by simp) (by simp)

@[simp] theorem append_empty : findings ++ ∅ = findings :=
  ext (by simp) (by simp) (by simp) (by simp) (by simp)

theorem append_assoc : first ++ second ++ third = first ++ (second ++ third) :=
  ext (by simp [FlagSet.inter_assoc]) (by simp [FlagSet.union_assoc])
    (by simp [Bool.or_assoc]) (by simp) (by simp)

/-- It is of no account when versions are narrowed. -/
theorem append_narrow (versions : VersionSet) :
    findings ++ narrow versions = narrow versions ++ findings :=
  ext (FlagSet.inter_comm _ _) (by simp [narrow]) (by simp [narrow]) (by simp [narrow])
    (by simp [narrow])

@[simp] theorem joinAll_nil : joinAll [] = ∅ := rfl

@[simp] theorem joinAll_cons (rest : List Findings) :
    joinAll (first :: rest) = first ++ joinAll rest := rfl

@[simp] theorem joinAll_append (left right : List Findings) :
    joinAll (left ++ right) = joinAll left ++ joinAll right := by
  induction left with
  | nil => simp
  | cons head tail induction => simp [induction, append_assoc]

theorem diagnostics_joinAll (list : List Findings) :
    (joinAll list).diagnostics = list.flatMap Findings.diagnostics := by
  induction list with
  | nil => rfl
  | cons head tail induction => simp [induction]

theorem warnings_joinAll (list : List Findings) :
    (joinAll list).warnings = list.flatMap Findings.warnings := by
  induction list with
  | nil => rfl
  | cons head tail induction => simp [induction]

theorem contains_allowed_joinAll (list : List Findings) (version : Version) :
    (joinAll list).allowed.contains version =
      list.all fun findings => findings.allowed.contains version := by
  induction list with
  | nil => exact FlagSet.contains_full version
  | cons head tail induction => simp [induction]

theorem contains_defects_joinAll (list : List Findings) (defect : Defect) :
    (joinAll list).defects.contains defect =
      list.any fun findings => findings.defects.contains defect := by
  induction list with
  | nil => exact FlagSet.contains_empty defect
  | cons head tail induction => simp [induction]

theorem xhtml_joinAll (list : List Findings) :
    (joinAll list).xhtml = list.any fun findings => findings.xhtml := by
  induction list with
  | nil => rfl
  | cons head tail induction => simp [induction]

/-- How many diagnostics are of a kind. -/
def countOf (kind : DiagnosticKind) : Nat := (findings.diagnostics.map Diagnostic.kind).count kind

@[simp] theorem countOf_empty (kind : DiagnosticKind) : (∅ : Findings).countOf kind = 0 := rfl
@[simp] theorem countOf_narrow (versions : VersionSet) (kind : DiagnosticKind) :
    (narrow versions).countOf kind = 0 := rfl
@[simp] theorem countOf_flag (defect : Defect) (kind : DiagnosticKind) :
    (flag defect).countOf kind = 0 := rfl

@[simp] theorem countOf_raise (diagnostic : Diagnostic) (kind : DiagnosticKind) :
    (raise diagnostic).countOf kind = if diagnostic.kind == kind then 1 else 0 :=
  List.count_singleton

theorem countOf_ite (condition : Prop) [Decidable condition] (kind : DiagnosticKind) :
    (if condition then first else second).countOf kind =
      if condition then first.countOf kind else second.countOf kind :=
  apply_ite (fun findings : Findings => findings.countOf kind) condition first second

@[simp] theorem countOf_append (kind : DiagnosticKind) :
    (first ++ second).countOf kind = first.countOf kind + second.countOf kind := by
  simp [countOf]

def mapDiagnostics (change : Diagnostic → Diagnostic) : Findings :=
  { findings with diagnostics := findings.diagnostics.map change }

section

variable (change : Diagnostic → Diagnostic)

@[simp] theorem allowed_mapDiagnostics :
    (findings.mapDiagnostics change).allowed = findings.allowed := rfl
@[simp] theorem defects_mapDiagnostics :
    (findings.mapDiagnostics change).defects = findings.defects := rfl
@[simp] theorem xhtml_mapDiagnostics :
    (findings.mapDiagnostics change).xhtml = findings.xhtml := rfl
@[simp] theorem diagnostics_mapDiagnostics :
    (findings.mapDiagnostics change).diagnostics = findings.diagnostics.map change := rfl

@[simp] theorem mapDiagnostics_append :
    (first ++ second).mapDiagnostics change =
      first.mapDiagnostics change ++ second.mapDiagnostics change :=
  ext rfl rfl rfl List.map_append rfl

@[simp] theorem mapDiagnostics_raise (diagnostic : Diagnostic) :
    (raise diagnostic).mapDiagnostics change = raise (change diagnostic) := rfl

end

/-! ## What a check can find -/

/-- What a check can find at all: the sets to which it can narrow the versions, the defects and
the kinds of diagnostics that it can add, and whether it can see a namespace or warn the
operator. -/
structure Reach where
  narrowings : List VersionSet := []
  defects : List Defect := []
  kinds : List DiagnosticKind := []
  namespaced : Bool := false
  warns : Bool := false

def Reach.join (first second : Reach) : Reach where
  narrowings := first.narrowings ++ second.narrowings
  defects := first.defects ++ second.defects
  kinds := first.kinds ++ second.kinds
  namespaced := first.namespaced || second.namespaced
  warns := first.warns || second.warns

instance : Append Reach := ⟨Reach.join⟩

/-- Findings put together from what is in reach of a check. -/
inductive Within (reach : Reach) : Findings → Prop
  | empty : Within reach ∅
  | narrow {versions : VersionSet} (listed : versions ∈ reach.narrowings) :
      Within reach (.narrow versions)
  | flag {defect : Defect} (listed : defect ∈ reach.defects) : Within reach (.flag defect)
  | raise {diagnostic : Diagnostic} (listed : diagnostic.kind ∈ reach.kinds) :
      Within reach (.raise diagnostic)
  | namespaced (allowed : reach.namespaced = true) : Within reach .namespaced
  | warn (warning : Warning) (allowed : reach.warns = true) : Within reach (.warn warning)
  | append {first second : Findings} (left : Within reach first) (right : Within reach second) :
      Within reach (first ++ second)

namespace Within

variable {reach left right : Reach} {findings first second : Findings}

theorem ofLeft (within : findings.Within left) : findings.Within (left ++ right) := by
  induction within with
  | empty => exact .empty
  | narrow listed => exact .narrow (List.mem_append_left _ listed)
  | flag listed => exact .flag (List.mem_append_left _ listed)
  | raise listed => exact .raise (List.mem_append_left _ listed)
  | namespaced allowed => exact .namespaced ((Bool.or_eq_true _ _).mpr (.inl allowed))
  | warn warning allowed => exact .warn warning ((Bool.or_eq_true _ _).mpr (.inl allowed))
  | append _ _ before after => exact .append before after

theorem ofRight (within : findings.Within right) : findings.Within (left ++ right) := by
  induction within with
  | empty => exact .empty
  | narrow listed => exact .narrow (List.mem_append_right _ listed)
  | flag listed => exact .flag (List.mem_append_right _ listed)
  | raise listed => exact .raise (List.mem_append_right _ listed)
  | namespaced allowed => exact .namespaced ((Bool.or_eq_true _ _).mpr (.inr allowed))
  | warn warning allowed => exact .warn warning ((Bool.or_eq_true _ _).mpr (.inr allowed))
  | append _ _ before after => exact .append before after

theorem join (before : first.Within left) (after : second.Within right) :
    (first ++ second).Within (left ++ right) :=
  .append before.ofLeft after.ofRight

theorem ite {condition : Prop} [Decidable condition] (yes : first.Within reach)
    (no : second.Within reach) : (if condition then first else second : Findings).Within reach :=
  iteInduction (fun _ => yes) (fun _ => no)

theorem joinAll {list : List Findings} (each : ∀ findings ∈ list, findings.Within reach) :
    (Findings.joinAll list).Within reach := by
  induction list with
  | nil => exact .empty
  | cons head tail induction =>
      exact .append (each head List.mem_cons_self)
        (induction fun findings member => each findings (List.mem_cons_of_mem head member))

theorem kind_mem (within : findings.Within reach) {diagnostic : Diagnostic}
    (raised : diagnostic ∈ findings.diagnostics) : diagnostic.kind ∈ reach.kinds := by
  induction within with
  | raise listed =>
      rw [List.mem_singleton.mp raised]
      exact listed
  | append _ _ before after =>
      rcases List.mem_append.mp raised with here | there
      · exact before here
      · exact after there
  | _ => cases raised

theorem countOf_eq_zero (within : findings.Within reach) (kind : DiagnosticKind)
    (unlisted : kind ∉ reach.kinds) : findings.countOf kind = 0 := by
  apply List.count_eq_zero.mpr
  intro raised
  rcases List.mem_map.mp raised with ⟨diagnostic, member, rfl⟩
  exact unlisted (within.kind_mem member)

/-- What holds of all sets to which a check can narrow the versions holds of what is left after
it, if it survives intersection. -/
theorem allowed (within : findings.Within reach) (property : VersionSet → Prop)
    (all : property .everything) (each : ∀ versions ∈ reach.narrowings, property versions)
    (inter : ∀ {before after}, property before → property after → property (before ∩ after)) :
    property findings.allowed := by
  induction within with
  | narrow listed => exact each _ listed
  | append _ _ before after => exact inter before after
  | _ => exact all

theorem allowed_eq_everything (within : findings.Within reach)
    (unlimited : reach.narrowings = []) : findings.allowed = .everything := by
  induction within with
  | narrow listed =>
      rw [unlimited] at listed
      cases listed
  | append _ _ before after => rw [allowed_append, before, after, FlagSet.inter_self]
  | _ => rfl

theorem defects_eq_empty (within : findings.Within reach) (flawless : reach.defects = []) :
    findings.defects = ∅ := by
  induction within with
  | flag listed =>
      rw [flawless] at listed
      cases listed
  | append _ _ before after => rw [defects_append, before, after, FlagSet.empty_union]
  | _ => rfl

theorem xhtml_eq_false (within : findings.Within reach) (blind : reach.namespaced = false) :
    findings.xhtml = false := by
  induction within with
  | namespaced allowed => exact absurd (blind.symm.trans allowed) Bool.false_ne_true
  | append _ _ before after => rw [xhtml_append, before, after, Bool.or_self]
  | _ => rfl

theorem warnings_eq_nil (within : findings.Within reach) (silent : reach.warns = false) :
    findings.warnings = [] := by
  induction within with
  | warn _ allowed => exact absurd (silent.symm.trans allowed) Bool.false_ne_true
  | append _ _ before after => rw [warnings_append, before, after, List.append_nil]
  | _ => rfl

end Within

end Findings

def Diagnostic.withoutValue (diagnostic : Diagnostic) : Diagnostic :=
  { diagnostic with value := none }

/-! ## Taking findings in -/

namespace Pass

@[simp] theorem diagnostics_absorb (pass : Pass) (findings : Findings) :
    (pass.absorb findings).diagnostics.toList =
      pass.diagnostics.toList ++ findings.diagnostics := by
  simp [absorb]

section

variable (options : Options) (findings : Findings)

@[simp] theorem versions_absorb_start :
    ((start options).absorb findings).state.versions = findings.allowed :=
  VersionSet.everything_inter findings.allowed

@[simp] theorem defects_absorb_start :
    ((start options).absorb findings).state.defects = findings.defects :=
  FlagSet.empty_union findings.defects

@[simp] theorem isXhtml_absorb_start :
    ((start options).absorb findings).state.isXhtml = findings.xhtml :=
  Bool.false_or findings.xhtml

@[simp] theorem diagnostics_absorb_start :
    ((start options).absorb findings).diagnostics.toList = findings.diagnostics := by
  simp [start]

end

theorem absorb_append (pass : Pass) (first second : Findings) :
    pass.absorb (first ++ second) = (pass.absorb first).absorb second := by
  simp [absorb, State.absorb, WarningLog.warnAll, FlagSet.inter_assoc, FlagSet.union_assoc,
    Bool.or_assoc, append_list_append]

end Pass

end HtmlConformance
