import RepairLoop.Proofs.Proposal.Vetting
import RepairLoop.Proofs.World.Obeys
import RepairLoop.Repair.Process
/-!
# Repair — the candidates of an issue

A candidate is new, belongs to its issue, has a name that is not taken, and is
vetted: it was refused, is held for a review, or offers what a proposer of the
session makes of an answer that its service gave (`proposeAll_leads`). All of
that is known before anything is stored.
-/

namespace RepairLoop

open Act (Keeps Obeys Leads)
open World (Apart)

/-! ## Names -/

namespace World

/-- No name that will be given out is taken. -/
def Unused (taken : String → Prop) (w : World) : Prop :=
  ∀ n, w.supply.given < n → ¬ taken (Supply.nameOf n)

/-- The outside gives its answers, and no name that will be given out is
taken. -/
structure Ready (o : Outside) (taken : String → Prop) (w : World) : Prop where
  outside : w.outside = o
  unused : w.Unused taken

variable {o : Outside} {taken : String → Prop} {w w' : World}

theorem Ready.of_apart (h : w.Ready o taken) (ha : Apart w w') : w'.Ready o taken :=
  ⟨ha.outside.trans h.outside, fun n hn => h.unused n (Nat.lt_of_le_of_lt ha.given hn)⟩

theorem Ready.mono {taken' : String → Prop} (h : w.Ready o taken) (ht : ∀ id, taken' id → taken id) :
    w.Ready o taken' :=
  ⟨h.outside, fun n hn htaken => h.unused n hn (ht _ htaken)⟩

/-- A name that is given out is not taken, and no other will be the same. -/
theorem Ready.next (h : w.Ready o taken) (houtside : w'.outside = w.outside)
    (hgiven : w.supply.given < w'.supply.given) :
    ¬ taken (Supply.nameOf (w.supply.given + 1)) ∧
      w'.Ready o fun id => id = Supply.nameOf (w.supply.given + 1) ∨ taken id := by
  refine ⟨h.unused _ (Nat.lt_succ_self _), houtside.trans h.outside, fun n hn htaken => ?_⟩
  rcases htaken with hsame | htaken
  · have hn' := Supply.nameOf_inj hsame
    omega
  · exact h.unused n (Nat.lt_trans hgiven hn) htaken

end World

open World (Ready)

/-! ## Proposers -/

namespace Proposer

/-- The offer is what the proposer makes of an answer about the issue that its
service gives, as the outside answers. -/
def Makes (p : Proposer) (o : Outside) (i : Issue) (x : Patch.Offer) : Prop :=
  ∃ source completion v v' answer, v.outside = o ∧
    (p.service.ask (Proposal.patchRequest p.settings i source)).run v = (.ok answer, v') ∧
    answer.text = .ok completion ∧ Proposal.Offers p.dangers i.filePath completion x

end Proposer

/-- A candidate for an issue: a new patch for it that is vetted, under a name
that is not taken. -/
structure Patch.Candidate (ok : Patch.Offer → Prop) (i : Issue) (taken : String → Prop)
    (p : Patch) : Prop where
  new : p.New
  owner : p.issueId = i.id
  vetted : p.Vetted ok
  name : ¬ taken p.id

namespace Proposer

variable {o : Outside} {taken : String → Prop} (p : Proposer) (i : Issue)

/-- What the proposer makes and its gate lets through. -/
def Clears (o : Outside) (x : Patch.Offer) : Prop := p.safety.Clears x ∧ p.Makes o i x

theorem build_leads {completion source : String} (index : Int)
    (hasked : ∀ x, Proposal.Offers p.dangers i.filePath completion x → p.Makes o i x) :
    Leads (Ready o taken) (p.build i completion source index)
      (fun q w => q.Candidate (p.Clears i o) i taken ∧ w.Ready o fun id => id = q.id ∨ taken id)
      (Ready o taken) := by
  intro w hw
  cases hrun : (p.build i completion source index).run w with
  | mk r w' =>
    cases r with
    | ok q =>
      obtain ⟨event, s, hpatch, rfl⟩ := build_run hrun
      obtain ⟨hid, howner, hgiven⟩ := Proposal.patchOf_named hpatch
      have houtside : ({ w with supply := s, events := w.events ++ [event] } : World).outside =
        w.outside := rfl
      obtain ⟨hfree, hready⟩ := hw.next houtside hgiven
      rw [← hid] at hfree hready
      have hvetted : q.Vetted (p.Clears i o) :=
        (Proposal.patchOf_vetted hpatch).mono fun x ⟨hclears, hoffers⟩ =>
          ⟨hclears, hasked x hoffers⟩
      exact ⟨⟨(Proposal.patchOf_spec hpatch).1, howner, hvetted, hfree⟩, hready⟩
    | error e => exact hw.of_apart ((p.build_new i completion source index).of_stop hrun)

/-- **A patch that is asked for is a candidate.** -/
theorem propose_leads (index : Int) :
    Leads (Ready o taken) (p.propose i index)
      (fun q w => q.Candidate (p.Clears i o) i taken ∧ w.Ready o fun id => id = q.id ∨ taken id)
      (Ready o taken) := by
  have hapart {α : Type} {T : α → Prop} {x : Act α} (h : Obeys Apart T x) :
      Leads (Ready o taken) x (fun a w => T a ∧ w.Ready o taken) (Ready o taken) :=
    .of_obeys h fun _ _ hw ha => hw.of_apart ha
  refine (hapart takeToken_apart).bind fun _ => .given fun _ => ?_
  refine (hapart (p.read_apart _)).bind fun source => .given fun _ => ?_
  refine (hapart (p.service.ask_apart _)).traced.bind fun answer => ?_
  -- the answer is one that the service gave
  refine Leads.bind (Q := fun completion w => (∀ x, Proposal.Offers p.dangers i.filePath completion x →
      p.Makes o i x) ∧ w.Ready o taken) ?_ fun completion => .given (p.build_leads i index)
  refine .ofExcept (fun w completion hw htext => ?_) fun w hw => hw.1.2
  obtain ⟨⟨-, hready⟩, v, hv, hrun⟩ := hw
  exact ⟨fun x hx => ⟨source, completion, v, w, answer, hv.outside, hrun, htext, hx⟩, hready⟩

end Proposer

/-! ## Sessions -/

namespace Session

/-- The proposers that a session asks: the one that was given to it, or else
those that are made of its settings, for the place that the root of its repository
leads to. -/
inductive Asks (s : Session) : Proposer → Prop
  | given {p : Proposer} (h : s.proposer = some p) : Asks s p
  | made {service : Service} {environment : List (String × String)} {files : FileTree}
    {here : Path} {place : Location} {dangers : List (Proposal.Danger Float)}
    (h : s.proposer = none)
    (hservice : Service.ofSettings s.settings.llm false environment = .ok service)
    (hplace : files.resolve (here.join s.repository.root) = .ok place)
    (hdangers : Proposal.dangers s.settings.safety.denylist = .ok dangers) :
    Asks s ⟨service, ⟨.root, place⟩, s.settings.llm, s.settings.safety, dangers⟩

/-- What the proposers of the session offer for an issue and their gates let
through. -/
def Clears (s : Session) (o : Outside) (i : Issue) (x : Patch.Offer) : Prop :=
  ∃ p, s.Asks p ∧ p.Clears i o x

variable {o : Outside} {taken : String → Prop} (s : Session) (i : Issue)

theorem asking_asks : Obeys Apart s.Asks s.asking := by
  unfold asking
  split
  · rename_i p hp
    exact .pure (.given hp)
  · rename_i hnone
    refine Keeps.get.bind fun w => Obeys.bind (Obeys.ofExcept fun _ h => h) fun service hservice => ?_
    refine (Proposer.make_spec _ _ _ _).mono fun p hp => ?_
    obtain ⟨files, here, place, dangers, hplace, hdangers, rfl⟩ := hp
    exact .made hnone hservice hplace hdangers

theorem proposePatiently_leads (index : Int) (waited left : Nat) :
    Leads (Ready o taken) (s.proposePatiently i index waited left)
      (fun q w => q.Candidate (s.Clears o i) i taken ∧ w.Ready o fun id => id = q.id ∨ taken id)
      (Ready o taken) := by
  have hasking : Leads (Ready o taken) s.asking (fun p w => s.Asks p ∧ w.Ready o taken)
      (Ready o taken) := .of_obeys s.asking_asks fun _ _ hw ha => hw.of_apart ha
  have hpropose {p : Proposer} (hp : s.Asks p) : Leads (Ready o taken) (p.propose i index)
      (fun q w => q.Candidate (s.Clears o i) i taken ∧ w.Ready o fun id => id = q.id ∨ taken id)
      (Ready o taken) := by
    refine (p.propose_leads i index).post fun q w ⟨hq, hw⟩ => ⟨?_, hw⟩
    exact ⟨hq.new, hq.owner, hq.vetted.mono fun x hx => ⟨p, hp, hx⟩, hq.name⟩
  have hpause (time : Amount) : Leads (Ready o taken) (Act.pause time) (fun _ => Ready o taken)
      (Ready o taken) :=
    (Leads.of_obeys (Act.pause_apart time) fun _ _ hw ha => hw.of_apart ha).post fun _ _ h => h.2
  induction left generalizing waited with
  | zero => exact hasking.bind fun p => .given hpropose
  | succ left ih =>
    refine hasking.bind fun p => .given fun hp => (hpropose hp).attempt.bind fun r => ?_
    cases r with
    | ok patch => exact .pure fun _ h => h
    | error f =>
      simp only
      split
      · exact (hpause _).bind fun _ => ih (waited + 1)
      · exact .throw fun _ h => h

/-- The candidates have names of their own. -/
structure Candidates (ok : Patch.Offer → Prop) (i : Issue) (taken : String → Prop)
    (ps : List Patch) : Prop where
  each : ∀ p ∈ ps, p.Candidate ok i taken
  names : (ps.map Patch.id).Nodup

theorem proposeEach_leads (index : Int) (count : Nat) :
    Leads (Ready o taken) (s.proposeEach i index count)
      (fun ps w => Candidates (s.Clears o i) i taken ps ∧
        w.Ready o fun id => id ∈ ps.map Patch.id ∨ taken id) (Ready o taken) := by
  induction count generalizing index taken with
  | zero => exact .pure fun _ hw => ⟨⟨by simp, by simp⟩, hw.mono fun _ => by simp⟩
  | succ count ih =>
    have hrest (p : Patch) : Leads (Ready o fun id => id = p.id ∨ taken id)
        (s.proposeEach i (index + 1) count) (fun ps w => Candidates (s.Clears o i) i
          (fun id => id = p.id ∨ taken id) ps ∧
            w.Ready o fun id => id ∈ ps.map Patch.id ∨ id = p.id ∨ taken id) (Ready o taken) :=
      (ih (index + 1)).stops fun _ hw => hw.mono fun _ => Or.inr
    refine (s.proposePatiently_leads i index _ _).bind fun p =>
      .given fun hp => (hrest p).bind fun ps => .pure fun _ ⟨hps, hw⟩ => ⟨⟨?_, ?_⟩, ?_⟩
    · refine List.forall_mem_cons.2 ⟨hp, fun q hq => ?_⟩
      obtain ⟨hnew, howner, hvetted, hname⟩ := hps.each q hq
      exact ⟨hnew, howner, hvetted, fun h => hname (Or.inr h)⟩
    · rw [List.map_cons, List.nodup_cons]
      refine ⟨fun hmem => ?_, hps.names⟩
      obtain ⟨q, hq, hsame⟩ := List.mem_map.1 hmem
      exact (hps.each q hq).name (Or.inl hsame)
    · refine hw.mono fun id hid => ?_
      rw [List.map_cons, List.mem_cons] at hid
      rcases hid with (hid | hid) | hid
      · exact Or.inr (Or.inl hid)
      · exact Or.inl hid
      · exact Or.inr (Or.inr hid)

/-- **The candidates of an issue are candidates**, whatever their order, and
their names are taken. -/
theorem proposeAll_leads :
    Leads (Ready o taken) (s.proposeAll i)
      (fun ps w => Candidates (s.Clears o i) i taken ps ∧
        w.Ready o fun id => id ∈ ps.map Patch.id ∨ taken id) (Ready o taken) := by
  refine (s.proposeEach_leads i 0 _).bind fun ps => .pure fun _ ⟨hps, hw⟩ => ⟨⟨?_, ?_⟩, ?_⟩
  · exact fun p hp => hps.each p (Patch.mem_ranked.1 hp)
  · exact (Patch.perm_ranked.map Patch.id).nodup_iff.2 hps.names
  · exact hw.mono fun id => Or.imp_left (Patch.perm_ranked.map Patch.id).mem_iff.1

end Session

end RepairLoop
