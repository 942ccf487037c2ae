import Mathlib.Data.Set.Card
import RepairLoop.Proofs.Repository.Runs
/-!
# Repository — the search for a free name

The names that are tried for a backup make a row without end in which no name comes
twice (`numbered_inj`). The search walks along it until git knows no branch of the name
(`Searches`); as long as it goes on, all names behind it are branches (`search_steps`).
So if there are finitely many branches the search ends, and whoever has the patience for
one name more than there are branches sees its end (`search_ends`).
-/

namespace RepairLoop

open Act (Leads)
open World (Ran Adds InVain Answered)

namespace Repository

/-- What git is asked about a branch. -/
def existence (name : String) : List String :=
  ["show-ref", "--verify", "--quiet", "refs/heads/" ++ name]

theorem existence_asking (name : String) : Asking (existence name) := ⟨_, by decide, rfl⟩

end Repository

open Repository (existence existence_asking numbered Asking)

/-- The branches that there are: what git is asked about each may be answered with success. -/
def Outside.branches (o : Outside) : Set String :=
  {name | ∃ calls c, c.arguments = existence name ∧ GitRun.Succeeded ⟨c, o.git (calls ++ [c])⟩}

/-- What is asked in vain is only asked. -/
theorem World.InVain.asking {arguments : List String} {w w' : World} (h : InVain arguments w w')
    (hask : Asking arguments) : Adds (fun g => Asking g.arguments) w w' :=
  h.mono fun _ hg => hg.1 ▸ hask

/-- A run that succeeded between two worlds is one that the outside answers so. -/
theorem World.Ran.mem_branches {g : GitRun} {w w' : World} {name : String} (h : Ran [g] w w')
    (hasked : g.arguments = existence name) (hg : g.Succeeded) : name ∈ w.outside.branches := by
  have hreply : (⟨g.call, w.outside.git (w.gitCalls ++ [g.call])⟩ : GitRun) = g :=
    List.head_eq_of_cons_eq h.replies
  exact ⟨w.gitCalls, g.call, hasked, hreply ▸ hg⟩

namespace Repository

variable {r : Repository} {w v : World} {name : String}

/-! ## The row of names -/

/-- **No name comes twice in a row of names.** -/
theorem numbered_inj (name : String) : (numbered name).Injective := by
  have hname (n : Nat) (hn : n ≠ 0) :
      (numbered name n).toList = name.toList ++ '-' :: Nat.toDigits 10 n := by
    rw [numbered, if_neg hn]
    simp [toString, Nat.toList_repr]
  have hbare (n : Nat) (hn : n ≠ 0) : numbered name 0 ≠ numbered name n := by
    intro h
    have hlength := congrArg (List.length ∘ String.toList) h
    simp only [Function.comp, hname n hn, List.length_append, List.length_cons] at hlength
    rw [numbered, if_pos rfl] at hlength
    omega
  intro m n h
  by_cases hm : m = 0
  · subst hm
    by_contra hn
    exact hbare n (Ne.symm hn) h
  · by_cases hn : n = 0
    · subst hn
      exact (hbare m hm h.symm).elim
    · have hlist := congrArg String.toList h
      rw [hname m hm, hname n hn] at hlist
      have hdigits := (List.cons.inj (List.append_cancel_left hlist)).2
      have hnumber := congrArg (Nat.ofDigitChars 10 · 0) hdigits
      rwa [Nat.ofDigitChars_ten_toDigits, Nat.ofDigitChars_ten_toDigits] at hnumber

/-- Among one name more than there are branches one is free. -/
theorem exists_numbered_notMem {branches : Set String} (hfinite : branches.Finite) (name : String) :
    ∃ n ≤ branches.ncard, numbered name n ∉ branches := by
  by_contra hnone
  push Not at hnone
  let tried := (Finset.range (branches.ncard + 1)).image (numbered name)
  have hsubset : ↑tried ⊆ branches := by
    intro x hx
    obtain ⟨n, hn, rfl⟩ := Finset.mem_image.1 (Finset.mem_coe.1 hx)
    exact hnone n (Nat.le_of_lt_succ (Finset.mem_range.1 hn))
  have hcard := Set.ncard_le_ncard hsubset hfinite
  rw [Set.ncard_coe_finset, Finset.card_image_of_injective _ (numbered_inj name),
    Finset.card_range] at hcard
  omega

/-! ## The search -/

/-- A look for a branch is one answer, or in vain. -/
theorem hasBranch_leads (name : String) (w : World) :
    Leads (· = w) (r.hasBranch name)
      (fun found v => ∃ g, found = (GitOutput.ofReply g.reply).succeeded ∧
        Answered (existence name) g w v) (InVain (existence name) w) := by
  refine (r.tryWith_leads (existence name) none w).bind fun out => .pure ?_
  rintro v ⟨g, rfl, hanswered⟩
  exact ⟨g, rfl, hanswered⟩

/-- What is found is a branch, and the outside stays as it is. -/
theorem mem_branches_of_hasBranch (hrun : (r.hasBranch name).run w = (.ok true, v)) :
    name ∈ w.outside.branches ∧ v.outside = w.outside := by
  obtain ⟨g, hfound, hanswered⟩ := (hasBranch_leads name w).of_run rfl hrun
  obtain ⟨u, ⟨l, hvain, -⟩, hran⟩ := hanswered.tried
  have hg : g.Succeeded := ⟨hanswered.ran, (GitOutput.succeeded_iff g.reply).1 hfound.symm⟩
  refine ⟨?_, hanswered.outside⟩
  exact hvain.outside ▸ hran.mem_branches hanswered.asked hg

/-- How the search ends that begins with a number: at a name that no branch has, or when a
look for a branch is stopped. -/
inductive Searches (r : Repository) (name : String) :
    Nat → World → Except Fault String × World → Prop
  | free {number : Nat} {w v : World}
    (hrun : (r.hasBranch (numbered name number)).run w = (.ok false, v)) :
    Searches r name number w (.ok (numbered name number), v)
  | stopped {number : Nat} {w v : World} {f : Fault}
    (hrun : (r.hasBranch (numbered name number)).run w = (.error f, v)) :
    Searches r name number w (.error f, v)
  | taken {number : Nat} {w v : World} {outcome : Except Fault String × World}
    (hrun : (r.hasBranch (numbered name number)).run w = (.ok true, v))
    (hrest : Searches r name (number + 1) v outcome) : Searches r name number w outcome

/-- One step of the search. -/
theorem freeName_run (left number : Nat) (w : World) :
    (r.freeName name (left + 1) number).run w =
      match (r.hasBranch (numbered name number)).run w with
      | (.ok true, v) => (r.freeName name left (number + 1)).run v
      | (.ok false, v) => (.ok (numbered name number), v)
      | (.error f, v) => (.error f, v) := by
  rw [freeName, run_bind_eq]
  cases (r.hasBranch (numbered name number)).run w with
  | mk found v =>
    cases found with
    | error f => rfl
    | ok found => cases found <;> rfl

/-- **Some steps of the search come to its end, or all the names that they try are
branches.** -/
theorem search_steps (r : Repository) (name : String) (steps number : Nat) (w : World) :
    (∃ outcome, Searches r name number w outcome ∧
      ∀ left, steps ≤ left → (r.freeName name left number).run w = outcome) ∨
    ∀ n, number ≤ n → n < number + steps → numbered name n ∈ w.outside.branches := by
  induction steps generalizing number w with
  | zero =>
    right
    intro n hn hlt
    omega
  | succ steps ih =>
    have hstep (left : Nat) (hleft : steps + 1 ≤ left) :
        ∃ more, steps ≤ more ∧ left = more + 1 := ⟨left - 1, by omega, by omega⟩
    cases hrun : (r.hasBranch (numbered name number)).run w with
    | mk found v =>
      cases found with
      | error f =>
        refine .inl ⟨_, .stopped hrun, fun left hleft => ?_⟩
        obtain ⟨more, -, rfl⟩ := hstep left hleft
        rw [freeName_run, hrun]
      | ok found =>
        cases found with
        | false =>
          refine .inl ⟨_, .free hrun, fun left hleft => ?_⟩
          obtain ⟨more, -, rfl⟩ := hstep left hleft
          rw [freeName_run, hrun]
        | true =>
          obtain ⟨hmem, houtside⟩ := mem_branches_of_hasBranch hrun
          rcases ih (number + 1) v with ⟨outcome, hrest, hleft⟩ | hall
          · refine .inl ⟨outcome, .taken hrun hrest, fun left hle => ?_⟩
            obtain ⟨more, hmore, rfl⟩ := hstep left hle
            rw [freeName_run, hrun]
            exact hleft more hmore
          · -- the name that was tried is a branch, and so are those behind it
            refine .inr fun n hn hlt => ?_
            by_cases hfirst : n = number
            · exact hfirst ▸ hmem
            · exact houtside ▸ hall n (by omega) (by omega)

/-- **The search ends if there are finitely many branches**, and it is seen to end by who waits
for one name more than there are branches. -/
theorem search_ends (hfinite : w.outside.branches.Finite) (name : String) :
    ∃ outcome, Searches r name 0 w outcome ∧
      ∀ left, w.outside.branches.ncard < left → (r.freeName name left 0).run w = outcome := by
  rcases search_steps r name (w.outside.branches.ncard + 1) 0 w with hends | hall
  · exact hends
  · obtain ⟨n, hn, hfree⟩ := exists_numbered_notMem hfinite name
    exact (hfree (hall n (Nat.zero_le n) (by omega))).elim

/-! ## What is asked in the search -/

/-- **A name that was found is free**: the last that git was asked was about it, the answer
was that there is no such branch, and nothing but questions came before. -/
theorem freeName_ok {left number : Nat} {free : String}
    (hrun : (r.freeName name left number).run w = (.ok free, v)) :
    ∃ early probe, (∀ g ∈ early, Asking g.arguments) ∧ probe.arguments = existence free ∧
      probe.reply.failure = none ∧ probe.reply.code ≠ 0 ∧ Ran (early ++ [probe]) w v := by
  induction left generalizing number w with
  | zero => cases (Prod.mk.inj hrun).1
  | succ left ih =>
    rw [freeName_run] at hrun
    cases hfirst : (r.hasBranch (numbered name number)).run w with
    | mk found u =>
      rw [hfirst] at hrun
      cases found with
      | error f => cases (Prod.mk.inj hrun).1
      | ok found =>
        obtain ⟨probe, hfound, hanswered⟩ := (hasBranch_leads _ w).of_run rfl hfirst
        obtain ⟨x, hvain, hlast⟩ := hanswered.tried
        obtain ⟨tries, htries, hasking⟩ := hvain.asking (existence_asking _)
        cases found with
        | true =>
          obtain ⟨early, last, hearly, hasked, hran, hcode, hrest⟩ := ih hrun
          have hprobe : Asking probe.arguments := hanswered.asked ▸ existence_asking _
          refine ⟨tries ++ probe :: early, last, ?_, hasked, hran, hcode, ?_⟩
          · exact List.forall_mem_append.2 ⟨hasking, List.forall_mem_cons.2 ⟨hprobe, hearly⟩⟩
          · have hall := htries.trans (hlast.trans hrest)
            rwa [List.singleton_append, ← List.cons_append, ← List.append_assoc] at hall
        | false =>
          obtain ⟨hname, rfl⟩ := Prod.mk.inj hrun
          obtain rfl := Except.ok.inj hname
          refine ⟨tries, probe, hasking, hanswered.asked, hanswered.ran, fun hcode => ?_,
            htries.trans hlast⟩
          rw [(GitOutput.succeeded_iff probe.reply).2 hcode] at hfound
          cases hfound

end Repository

end RepairLoop
