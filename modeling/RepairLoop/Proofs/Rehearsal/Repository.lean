import Mathlib.Data.List.Induction
import RepairLoop.Proofs.Text.Encoded
import RepairLoop.Rehearsal.Repository
import RepairLoop.Repository.Basic
/-!
# Rehearsal — git as a minimal repository

`Follows` says that git answers as a minimal repository does, whose state after
some calls is given: what is asked of branches is answered and done as
`Repository.run` has it, while what is asked of files, the index and commits is
answered in any way, or cannot be run at all, and leaves the branches. A script
whose rules answer only to the latter is such a git (`GitScript.follows`).
-/

namespace RepairLoop.Rehearsal

/-- What may be answered in any way, by its first word. -/
def IsFree (arguments : List String) : Prop :=
  ∃ word ∈ ["apply", "add", "commit", "cherry-pick", "diff", "status", "log"],
    arguments.head? = some word

/-- Git answers as a minimal repository; what it changes in files is left open, and so is
what becomes of the number of commits where the answer is free. -/
structure Follows (git : List GitCall → GitReply) (state : List GitCall → Repository) : Prop where
  free : ∀ calls (c : GitCall), IsFree c.arguments →
    (state (calls ++ [c])).current = (state calls).current ∧
      (state (calls ++ [c])).branches = (state calls).branches
  bound : ∀ calls (c : GitCall), ¬ IsFree c.arguments →
    state (calls ++ [c]) = ((state calls).run c.arguments).2 ∧
      git (calls ++ [c]) =
        { ((state calls).run c.arguments).1 with changes := (git (calls ++ [c])).changes }

/-- **What a minimal repository prints is read as it was written.** -/
theorem ofReply_reply (code : Int) (out err : String) :
    GitOutput.ofReply (reply code out err) = ⟨code, out, err⟩ := by
  rw [GitOutput.ofReply, reply, Text.decodeLossy_toUTF8, Text.decodeLossy_toUTF8]

namespace Repository

variable (s : Repository)

/-! ## Single runs -/

theorem branchOf_reference (name : String) : branchOf ("refs/heads/" ++ name) = name := by
  unfold branchOf
  split
  · rename_i found hfound
    have hsame := String.eq_append_of_dropPrefix?_string_eq_some hfound
    have hname : name = found.copy := by
      have hlists := congrArg String.toList hsame
      rw [String.toList_append, String.toList_append] at hlists
      exact String.toList_inj.1 (List.append_cancel_left hlists)
    exact hname.symm
  · rename_i hnone
    rw [String.dropPrefix?_eq_dropPrefix?_toSlice, String.Slice.dropPrefix?_eq_none_iff] at hnone
    have hstarts : (("refs/heads/" ++ name).toSlice.startsWith "refs/heads/") = true := by
      rw [String.Slice.startsWith_string_iff, String.copy_toSlice, String.toList_append]
      exact List.prefix_append _ _
    rw [hnone] at hstarts
    cases hstarts

/-- A minimal repository can always be run. -/
theorem run_failure (arguments : List String) : (s.run arguments).1.failure = none := by
  unfold run
  split <;> try rfl
  · split <;> rfl
  · split <;> rfl
  · split
    · simp only
      split <;> rfl
    · split <;> rfl
  · simp only
    split <;> rfl

/-- A question for the branch that is checked out. -/
theorem run_currentBranch : s.run ["rev-parse", "--abbrev-ref", "HEAD"] =
    (if s.commits = 0 then reply 128 "" "fatal: ambiguous argument 'HEAD'"
      else reply 0 (s.current ++ "\n") "", s) := rfl

/-- A question for a branch. -/
theorem run_hasBranch (name : String) :
    s.run ["show-ref", "--verify", "--quiet", "refs/heads/" ++ name] =
      (reply (if s.branches.contains name then 0 else 1) "" "", s) := by
  show (reply (if s.branches.contains (branchOf ("refs/heads/" ++ name)) then 0 else 1) "" "", s) = _
  rw [branchOf_reference]

/-- Questions leave the repository as it is. -/
theorem run_ask {word : String} (h : word ∈ ["rev-parse", "show-ref"]) (rest : List String) :
    (s.run (word :: rest)).2 = s := by
  rw [List.mem_cons, List.mem_singleton] at h
  rcases h with rfl | rfl
  · unfold run
    split <;> first
      | rfl
      | (rename_i heq; simp at heq)
  · rfl

/-- What may be answered in any way leaves the branches as they are. -/
theorem run_free {arguments : List String} (h : IsFree arguments) :
    (s.run arguments).2.current = s.current ∧ (s.run arguments).2.branches = s.branches := by
  obtain ⟨word, hword, hhead⟩ := h
  have hbranch : word ≠ "branch" := by rintro rfl; exact absurd hword (by decide)
  have hcheckout : word ≠ "checkout" := by rintro rfl; exact absurd hword (by decide)
  unfold run
  split <;> try exact ⟨rfl, rfl⟩
  · exact absurd (Option.some.inj hhead).symm hbranch
  · exact absurd (Option.some.inj hhead).symm hcheckout
  · split <;> exact ⟨rfl, rfl⟩

theorem run_reset (rest : List String) : s.run ("reset" :: rest) = (reply 0 "" "", s) := rfl

/-- A branch is made where there is none of its name. -/
theorem run_branch {name : String} (start : String) (hlong : name ≠ "-D") (hshort : name ≠ "-d")
    (h : name ∉ s.branches) : s.run ["branch", name, start] =
      (reply 0 "" "", { s with branches := s.branches ++ [name] }) := by
  have hmake : ¬ (name == "-D" || name == "-d") = true := by simp [hlong, hshort]
  exact (if_neg hmake).trans (if_neg (by simpa using h))

theorem run_branch_taken {name : String} (start : String) (hlong : name ≠ "-D")
    (hshort : name ≠ "-d") (h : name ∈ s.branches) : (s.run ["branch", name, start]).2 = s := by
  have hmake : ¬ (name == "-D" || name == "-d") = true := by simp [hlong, hshort]
  exact congrArg Prod.snd ((if_neg hmake).trans (if_pos (List.contains_iff_mem.2 h)))

theorem run_delete {name : String} (h : name ∈ s.branches) :
    s.run ["branch", "-D", name] =
      (reply 0 "" "", { s with branches := s.branches.erase name }) :=
  if_pos (List.contains_iff_mem.2 h)

theorem run_checkout {name : String} (h : name ∈ s.branches) :
    s.run ["checkout", "--quiet", name] = (reply 0 "" "", { s with current := name }) :=
  if_pos (List.contains_iff_mem.2 h)

end Repository

/-! ## Scripts -/

namespace Rule

variable {α : Type} {words : List String} {rules rules' : List (Rule α)} {a : α}

/-- A rule answers what begins as the rule does. -/
theorem isFree_of_fits {rule : Rule α} (h : rule.fits words = true) (hfree : IsFree rule.opening) :
    IsFree words := by
  obtain ⟨word, hword, hhead⟩ := hfree
  refine ⟨word, hword, ?_⟩
  have hprefix : rule.opening <+: words := List.isPrefixOf_iff_prefix.1 (Bool.and_eq_true_iff.1 h).1
  obtain ⟨rest, rfl⟩ := hprefix
  rw [List.head?_append, hhead]
  rfl

/-- Rules for what is free answer nothing else, and stay such rules. -/
theorem isFree_of_use (h : use? words rules = some (a, rules'))
    (hrules : ∀ rule ∈ rules, IsFree rule.opening) :
    IsFree words ∧ ∀ rule ∈ rules', IsFree rule.opening := by
  induction rules generalizing rules' a with
  | nil => cases h
  | cons rule rules ih =>
    obtain ⟨hrule, hrest⟩ := List.forall_mem_cons.1 hrules
    rw [use?] at h
    split at h
    · rename_i hfits
      obtain ⟨-, rfl⟩ := Prod.mk.inj (Option.some.inj h)
      exact ⟨isFree_of_fits hfits hrule, List.forall_mem_cons.2 ⟨hrule, hrest⟩⟩
    · obtain ⟨⟨b, rest⟩, hused, hsame⟩ := Option.map_eq_some_iff.1 h
      obtain ⟨-, rfl⟩ := Prod.mk.inj hsame
      obtain ⟨hwords, hkept⟩ := ih hused hrest
      exact ⟨hwords, List.forall_mem_cons.2 ⟨hrule, hkept⟩⟩

end Rule

namespace GitScript

/-- The script after some calls. -/
def after (s : GitScript) (calls : List GitCall) : GitReply × GitScript :=
  calls.foldl (fun (_, s) call => s.next call) (reply 0 "" "", s)

theorem after_append (s : GitScript) (calls : List GitCall) (c : GitCall) :
    s.after (calls ++ [c]) = (s.after calls).2.next c := by
  rw [after, List.foldl_append]
  rfl

theorem answer_eq (s : GitScript) (calls : List GitCall) : s.answer calls = (s.after calls).1 := rfl

/-- All rules of a script are for what is free. -/
def Lenient (s : GitScript) : Prop := ∀ rule ∈ s.rules, IsFree rule.opening

/-- **One call** is answered by a rule, which leaves the repository, or by the
repository. -/
theorem next_cases {s : GitScript} (h : s.Lenient) (c : GitCall) : (s.next c).2.Lenient ∧
    ((IsFree c.arguments ∧ (s.next c).2.repository = s.repository) ∨
      ((s.next c).2.repository = (s.repository.run c.arguments).2 ∧
        (s.next c).1 = { (s.repository.run c.arguments).1 with changes := (s.next c).1.changes })) := by
  unfold next
  cases hused : Rule.use? c.arguments s.rules with
  | some used =>
    obtain ⟨hfree, hkept⟩ := Rule.isFree_of_use hused h
    exact ⟨hkept, .inl ⟨hfree, rfl⟩⟩
  | none => exact ⟨h, .inr ⟨rfl, rfl⟩⟩

theorem after_lenient {s : GitScript} (h : s.Lenient) (calls : List GitCall) :
    (s.after calls).2.Lenient := by
  induction calls using List.reverseRecOn with
  | nil => exact h
  | append_singleton calls c ih =>
    rw [after_append]
    exact (next_cases ih c).1

/-- **A script with rules for what is free is a minimal repository** in all
else. -/
theorem follows {s : GitScript} (h : s.Lenient) :
    Follows s.answer fun calls => (s.after calls).2.repository := by
  constructor
  · intro calls c hfree
    simp only [after_append]
    rcases (next_cases (after_lenient h calls) c).2 with ⟨-, hkept⟩ | ⟨hrun, -⟩
    · exact ⟨congrArg _ hkept, congrArg _ hkept⟩
    · rw [hrun]
      exact Repository.run_free _ hfree
  · intro calls c hbound
    simp only [after_append, answer_eq]
    rcases (next_cases (after_lenient h calls) c).2 with ⟨hfree, -⟩ | hrun
    · exact absurd hfree hbound
    · exact hrun

end GitScript

end RepairLoop.Rehearsal
