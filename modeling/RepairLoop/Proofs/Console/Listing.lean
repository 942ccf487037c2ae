import RepairLoop.Console.Perform
import RepairLoop.Proofs.Store.Search
/-!
# Listing — the issues that a search with a status lists

A job in a session runs in the world in which the session was opened, and closing the session
prints nothing (`withSession_run`, `within_run`). A search takes the newest issues that fit the
query, as many as it was told, and only then are those with the status picked out
(`chosenIssues_search`). What is listed are therefore the newest of the issues that both fit and
have the status exactly if none of them was cut off for one without it (`filter_take_eq_iff`).
-/

namespace RepairLoop

section

variable {α : Type} {p : α → Bool} {xs : List α} {n : Nat}

/-- The first of those that are picked are the ones picked from the first, and then some of
the later ones where these are too few. -/
theorem take_filter_eq : (xs.filter p).take n = (xs.take n).filter p ++
    ((xs.drop n).filter p).take (n - ((xs.take n).filter p).length) := by
  have hfew : ((xs.take n).filter p).length ≤ n :=
    (List.length_filter_le p _).trans (List.length_take_le n xs)
  conv_lhs => rw [← List.take_append_drop n xs, List.filter_append]
  rw [List.take_append, List.take_of_length_le hfew]

/-- **To pick from the first elements or to take the first of those picked** is the same exactly
if all of the first are picked, or none of the later ones is. -/
theorem filter_take_eq_iff : (xs.take n).filter p = (xs.filter p).take n ↔
    (∀ x ∈ xs.take n, p x = true) ∨ ∀ x ∈ xs.drop n, p x = false := by
  have hfew : ((xs.take n).filter p).length ≤ (xs.take n).length := List.length_filter_le p _
  have hfirst : (xs.take n).length = min n xs.length := List.length_take
  have hnone : (xs.drop n).filter p = [] ↔ ∀ x ∈ xs.drop n, p x = false := by
    simp only [List.filter_eq_nil_iff, Bool.not_eq_true]
  rw [take_filter_eq, List.self_eq_append_right, List.take_eq_nil_iff, hnone,
    ← List.length_filter_eq_length_iff]
  constructor
  · rintro (hfull | hlater)
    · exact .inl (by omega)
    · exact .inr hlater
  · rintro (hall | hlater)
    · rcases Nat.lt_or_ge xs.length n with hlt | hge
      · -- nothing is left behind the first ones
        refine .inr ?_
        rw [List.drop_of_length_le hlt.le]
        exact fun _ hx => (List.not_mem_nil hx).elim
      · exact .inl (by omega)
    · exact .inr hlater

end

namespace Act

/-- Work that is looked at goes on with what it came to. -/
theorem attempt_bind_run {α β : Type} {x : Act α} {r : Except Fault α} {w v : World}
    (h : x.run w = (r, v)) (f : Except Fault α → Act β) :
    (attempt x >>= f).run w = (f r).run v := by
  rw [run_bind_of_ok (attempt_run x w), h]

end Act

namespace Console

open Store (Fits FitsQuery fits patternLimit patternOf)
open Store.Operation (run)

variable {config : Path} {s : Session} {v w : World}

/-! ## Jobs in a session -/

/-- A session with the settings in a file. -/
def opening (config : Path) : Act Session := do Session.opened (← readSettings config) none

/-- **Work in a session is done in the world in which the session was opened.** -/
theorem withSession_run (h : (opening config).run w = (.ok s, v)) (work : Session → Act Ending) :
    (withSession config work).run w = (s.within (work s)).run v := by
  obtain ⟨settings, u, hread, hopened⟩ := run_ok_of_bind h
  rw [withSession, withSettings, Act.attempt_bind_run hread]
  exact Act.attempt_bind_run hopened _

/-- **Closing a session puts its store in its place**, and does nothing else. -/
theorem within_run {α : Type} (s : Session) (work : Act α) (w : World) :
    ∃ stores, (s.within work).run w = ((work.run w).1, { (work.run w).2 with stores }) ∧
      ∀ place, s.place = some place → stores.lookup place = some (work.run w).2.store := by
  rw [Session.within, Act.finally_, run_bind_of_ok (Act.attempt_run _ w)]
  unfold Session.close
  split
  · rename_i hnone
    refine ⟨_, Act.ofExcept_run _ _, fun place hplace => ?_⟩
    cases hnone.symm.trans hplace
  · rename_i kept hkept
    refine ⟨_, Act.ofExcept_run _ _, fun place hplace => ?_⟩
    obtain rfl := Option.some.inj (hkept.symm.trans hplace)
    exact List.lookup_cons_self

/-! ## What is printed -/

theorem sayAll_run (texts : List String) (w : World) : (sayAll texts).run w =
    (.ok (), { w with printed := w.printed ++ texts.map (· ++ "\n") }) := by
  induction texts generalizing w with
  | nil => simp only [List.map_nil, List.append_nil]; rfl
  | cons t ts ih =>
    have hfirst : (say t).run w = (.ok (), { w with printed := w.printed ++ [t ++ "\n"] }) := rfl
    rw [sayAll, run_bind_of_ok hfirst, ih, List.map_cons, List.append_assoc]
    rfl

/-- The lines that list issues, or say that there are none. -/
def listing (issues : List Issue) : List String :=
  if issues.isEmpty then ["No matching issues.\n"] else issues.map (storedLine · ++ "\n")

/-- **What is printed are the issues that were chosen.** -/
theorem listIssues_run (status : Option IssueStatus) (search : Option String) (limit : Int)
    (w : World) : (listIssues status search limit).run w =
      match chosenIssues w.store status search limit with
      | .ok issues => (.ok .good, { w with printed := w.printed ++ listing issues })
      | .error f => (.error f.toFault, w) := by
  rw [listIssues, run_bind_eq, Act.stored_run]
  cases chosenIssues w.store status search limit with
  | error f => rfl
  | ok issues =>
    cases hempty : issues.isEmpty with
    | true => simp only [Except.mapError, hempty, listing, if_true]; rfl
    | false =>
      simp only [Except.mapError, hempty, listing, Bool.false_eq_true, if_false]
      rw [run_bind_of_ok (sayAll_run _ w), List.map_map]
      rfl

/-- The line of an issue is not that which says that there are none. -/
theorem storedLine_ne (i : Issue) : storedLine i ++ "\n" ≠ "No matching issues.\n" := by
  intro h
  have hfirst : (storedLine i ++ "\n").toList.head? = some '-' := by
    simp only [storedLine, String.toList_append]
    rfl
  rw [h] at hfirst
  exact absurd hfirst (by decide)

/-- **Issues are listed as their first ones only if they are no more than these.** -/
theorem listing_inj {early issues : List Issue} (hearly : early <+: issues)
    (h : listing early = listing issues) : early = issues := by
  cases early with
  | nil =>
    cases issues with
    | nil => rfl
    | cons i is =>
      exact absurd (List.cons.inj h).1.symm (storedLine_ne i)
  | cons j early =>
    obtain ⟨later, rfl⟩ := hearly
    have hlength := congrArg List.length h
    simp only [listing, List.cons_append, List.isEmpty_cons, Bool.false_eq_true, if_false,
      List.length_map, List.length_cons, List.length_append] at hlength
    have hnone : later = [] := List.eq_nil_of_length_eq_zero (by omega)
    rw [hnone, List.append_nil]

/-- **What is picked from the newest issues is listed as the newest of those that are picked**
exactly if it is these. -/
theorem listing_filter_take_iff {found : List Issue} {c : Issue → Bool} {n : Nat} :
    listing ((found.take n).filter c) = listing ((found.filter c).take n) ↔
      (∀ i ∈ found.take n, c i = true) ∨ ∀ i ∈ found.drop n, c i = false := by
  rw [← filter_take_eq_iff]
  refine ⟨fun h => listing_inj ?_ h, congrArg listing⟩
  rw [take_filter_eq]
  exact List.prefix_append _ _

theorem listing_eq_none_iff {issues : List Issue} :
    listing issues = ["No matching issues.\n"] ↔ issues = [] := by
  constructor
  · intro h
    exact (listing_inj List.nil_prefix h.symm).symm
  · rintro rfl
    rfl

/-- A search is made in a store: the limit is not too large, and neither is the query, if there
is an issue to compare it with. -/
def Searches (store : Store) (query : String) (limit : Int) : Prop :=
  fits limit = true ∧ (store.issues = [] ∨ (patternOf query).utf8ByteSize ≤ patternLimit)

section

variable {store : Store} {query : String} {limit : Int}

/-- **A search with a status** picks from as many of the newest issues that fit as it was
told. -/
theorem chosenIssues_search (htimed : store.Timed) (hquery : query ≠ "") (hlimit : 1 ≤ limit)
    (h : Searches store query limit) (status : IssueStatus) :
    chosenIssues store (some status) (some query) limit =
      .ok (((store.latest (FitsQuery query)).take limit.toNat).filter (·.status == status)) := by
  have hsearch : (some query).filter (· != "") = some query := by
    rw [Option.filter_some, if_pos (bne_iff_ne.2 hquery)]
  have hshort : ¬ (limit ≠ 0 ∧ store.issues ≠ [] ∧
      patternLimit < (patternOf query).utf8ByteSize) := by
    rintro ⟨-, hsome, hlong⟩
    rcases h.2 with hnone | hle
    · exact hsome hnone
    · omega
  rw [chosenIssues, hsearch]
  simp only
  rw [htimed.searchIssues_eq (by omega), if_neg (by simp [h.1]), if_neg hshort]
  rfl

theorem chosenIssues_refused (htimed : store.Timed) (hquery : query ≠ "") (hlimit : 1 ≤ limit)
    (h : ¬ Searches store query limit) (status : IssueStatus) :
    ∃ f, chosenIssues store (some status) (some query) limit = .error f := by
  have hsearch : (some query).filter (· != "") = some query := by
    rw [Option.filter_some, if_pos (bne_iff_ne.2 hquery)]
  rw [chosenIssues, hsearch]
  simp only
  rw [htimed.searchIssues_eq (by omega)]
  by_cases hfits : fits limit = true
  · rw [Searches, not_and, not_or, Nat.not_le] at h
    rw [if_neg (by simp [hfits]), if_pos ⟨by omega, h hfits⟩]
    exact ⟨_, rfl⟩
  · rw [if_pos (by simpa using hfits)]
    exact ⟨_, rfl⟩

end

/-- The job that lists the issues with a status among those that fit a query. -/
def listingJob (config : Path) (status : IssueStatus) (query : String) (limit : Int) : Act Ending :=
  perform ⟨config, .issues (some status) (some query) limit⟩

/-- The job prints what is listed in the session and ends as that ends. -/
theorem listingJob_run (h : (opening config).run w = (.ok s, v)) (status : IssueStatus)
    (query : String) (limit : Int) :
    ((listingJob config status query limit).run w).1 =
        ((listIssues (some status) (some query) limit).run v).1 ∧
      ((listingJob config status query limit).run w).2.printed =
        ((listIssues (some status) (some query) limit).run v).2.printed := by
  have hjob : listingJob config status query limit =
      withSession config fun _ => listIssues (some status) (some query) limit := rfl
  obtain ⟨stores, hrun, -⟩ := within_run s (listIssues (some status) (some query) limit) v
  rw [hjob, withSession_run h, hrun]
  exact ⟨rfl, rfl⟩

/-- **A status and a search compose only up to the limit.** What is listed with both is picked
from the newest issues that fit the query. These are the newest of the issues that both fit and
have the status exactly if each issue within the limit has the status, or no later one has it, as
far as the limit and the query are such that a search is made. That no issue matches is said
whenever none within the limit has the status. A query without characters is no search: all issues
with the status are listed then. -/
theorem listingJob_composes_iff (h : (opening config).run w = (.ok s, v)) {ops : List Store.Operation}
    (hstore : v.store = run ops) (status : IssueStatus) (query : String) {limit : Int}
    (hlimit : 1 ≤ limit) :
    let job := (listingJob config status query limit).run w
    let found := v.store.latest (FitsQuery query)
    let first := found.take limit.toNat
    (query ≠ "" →
      ((job.1 = .ok .good ∧ job.2.printed =
          v.printed ++ listing ((found.filter (·.status == status)).take limit.toNat)) ↔
        Searches v.store query limit ∧ ((∀ i ∈ first, i.status = status) ∨
          ∀ i ∈ found.drop limit.toNat, i.status ≠ status)) ∧
      (Searches v.store query limit → job.1 = .ok .good ∧
        job.2.printed = v.printed ++ listing (first.filter (·.status == status)) ∧
        (job.2.printed = v.printed ++ ["No matching issues.\n"] ↔
          ∀ i ∈ first, i.status ≠ status))) ∧
    (query = "" → job.1 = .ok .good ∧
      job.2.printed = v.printed ++ listing (v.store.issuesByStatus status)) := by
  intro job found first
  obtain ⟨hend, hprinted⟩ := listingJob_run h status query limit
  have hend : job.1 = _ := hend
  have hprinted : job.2.printed = _ := hprinted
  rw [listIssues_run] at hend hprinted
  refine ⟨fun hquery => ?_, fun hquery => ?_⟩
  · have htimed : v.store.Timed := hstore ▸ Store.Operation.run_timed ops
    by_cases hsearches : Searches v.store query limit
    · rw [chosenIssues_search htimed hquery hlimit hsearches] at hend hprinted
      have hlisted : job.2.printed = v.printed ++ listing (first.filter (·.status == status)) :=
        hprinted
      refine ⟨?_, fun _ => ⟨hend, hlisted, ?_⟩⟩
      · rw [hlisted, and_iff_right hend, and_iff_right hsearches, List.append_cancel_left_eq,
          listing_filter_take_iff]
        simp only [beq_iff_eq, beq_eq_false_iff_ne]
        rfl
      · rw [hlisted, List.append_cancel_left_eq, listing_eq_none_iff, List.filter_eq_nil_iff]
        simp only [beq_iff_eq]
    · obtain ⟨f, hf⟩ := chosenIssues_refused htimed hquery hlimit hsearches status
      rw [hf] at hend
      refine ⟨iff_of_false (fun hgood => ?_) fun hboth => hsearches hboth.1,
        fun hyes => absurd hyes hsearches⟩
      rw [hgood.1] at hend
      cases hend
  · subst hquery
    exact ⟨hend, hprinted⟩

/-! ## Two issues in one file -/

/-- The newer one of two issues is resolved. -/
def recorded : List Store.Operation :=
  [.createIssue { (default : Issue) with
      id := "issue-2", filePath := "app.py", status := .resolved, createdAt := ⟨1, none⟩ },
    .createIssue { (default : Issue) with id := "issue-1", filePath := "app.py" }]

/-- A project with a commit, whose store holds these issues. -/
def shelf : World := { (default : World) with
  here := ⟨.root, ["project"]⟩
  files := ⟨[(["project", ".git"], .directory),
    (["project", "data", "selfheal.sqlite"], .file Session.storeMark)]⟩
  stores := [(["project", "data", "selfheal.sqlite"], run recorded)]
  outside := { (default : Outside) with git := fun _ => ⟨0, "c0ffee".toUTF8, .empty, [], none⟩ } }

/-- The file of the settings; it is not there. -/
def unwritten : Path := ⟨.relative, ["selfheal.yaml"]⟩

/-- A session can be opened there, and it has the store open. -/
theorem shelf_opens : ∃ s v, (opening unwritten).run shelf = (.ok s, v) ∧ v.store = run recorded ∧
    v.printed = [] := by
  have hopens : ((opening unwritten).run shelf).1.toOption.isSome = true := by decide +kernel
  have hstore : ((opening unwritten).run shelf).2.store = run recorded := by with_unfolding_all rfl
  have hprinted : ((opening unwritten).run shelf).2.printed = [] := by decide +kernel
  match hrun : (opening unwritten).run shelf with
  | (.ok s, v) =>
    rw [hrun] at hstore hprinted
    exact ⟨s, v, rfl, hstore, hprinted⟩
  | (.error f, v) =>
    rw [hrun] at hopens
    cases hopens

/-- Both issues fit, and they come the latest first as they are. -/
theorem latest_recorded : (run recorded).latest (FitsQuery "app") = (run recorded).issues := by
  have hfit : ∀ i ∈ (run recorded).issues, decide (FitsQuery "app" i) = true := by decide +kernel
  have hsorted : (run recorded).issues.Pairwise fun a b =>
      decide (b.createdAt.instant ≤ a.createdAt.instant) = true := by decide +kernel
  rw [Store.latest, List.filter_eq_self.2 hfit, List.mergeSort_of_pairwise hsorted]

theorem recorded_searches : Searches (run recorded) "app" 1 :=
  ⟨by decide, .inr (by decide +kernel)⟩

/-- Of the resolved issues the newest is listed, which is the newest that fits. -/
theorem listingJob_composes_iff_resolved : ∃ s v, (opening unwritten).run shelf = (.ok s, v) ∧
    v.store = run recorded ∧
    ((listingJob unwritten .resolved "app" 1).run shelf).2.printed =
      ["- issue-2 [Resolved] TypeCompat app.py:0:0 :: \n"] := by
  obtain ⟨s, v, hopens, hstore, hprinted⟩ := shelf_opens
  have hlimit : (1 : Int) ≤ 1 := le_refl 1
  obtain ⟨hsearch, -⟩ := listingJob_composes_iff hopens hstore .resolved "app" hlimit
  have hfirst : ∀ i ∈ (run recorded).issues.take 1, i.status = .resolved := by decide +kernel
  have hlisted : listing (((run recorded).issues.filter (·.status == .resolved)).take 1) =
      ["- issue-2 [Resolved] TypeCompat app.py:0:0 :: \n"] := by decide +kernel
  obtain ⟨hiff, -⟩ := hsearch (by decide)
  rw [hstore, latest_recorded, hprinted] at hiff
  exact ⟨s, v, hopens, hstore, (hiff.2 ⟨recorded_searches, .inl hfirst⟩).2.trans hlisted⟩

/-- **An open issue that fits is not listed**: the newest issue that fits is resolved, and so it
is said that no issue matches. -/
theorem listingJob_misses :
    ((listingJob unwritten .open_ "app" 1).run shelf).2.printed = ["No matching issues.\n"] ∧
      listing ((((run recorded).latest (FitsQuery "app")).filter (·.status == .open_)).take 1) =
        ["- issue-1 [Open] TypeCompat app.py:0:0 :: \n"] := by
  obtain ⟨s, v, hopens, hstore, hprinted⟩ := shelf_opens
  have hchosen : chosenIssues v.store (some .open_) (some "app") 1 =
      .ok (((run recorded).issues.take 1).filter (·.status == .open_)) := by
    rw [hstore, chosenIssues_search (Store.Operation.run_timed recorded) (by decide) (by decide)
      recorded_searches, latest_recorded]
    rfl
  have hnone : listing (((run recorded).issues.take 1).filter (·.status == .open_)) =
      ["No matching issues.\n"] := by decide +kernel
  constructor
  · rw [(listingJob_run hopens .open_ "app" 1).2, listIssues_run, hchosen]
    simp only [hprinted, hnone, List.nil_append]
  · rw [latest_recorded]
    decide +kernel

end Console

end RepairLoop
