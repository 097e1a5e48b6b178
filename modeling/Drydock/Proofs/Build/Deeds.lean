import Drydock.Proofs.Build.Configure
import Drydock.Proofs.FileTree.Above

/-!
# What a run does to files

Two things change files in a run: programs, which may do anything, and the texts that the run writes
itself.  A list of `Deed`s names them in their order, and `Deeds` relates the machines before and
behind such a list; between two deeds a run only reports.

The list is the footprint of a run as far as it can be told.  Nothing can be said of the files that
a program leaves, so a deed of that kind carries the end of the program and nothing else.  A list
without programs is different: then every change to the tree is accounted for, and what is not
written stays as it is, missing directories above a written file apart (`Deeds.writes`).

Configuring is the one place where the deeds are not known beforehand.  How many attempts there are
depends on the script, and a header is written only when all of them were in vain.

* `Deeds` — what lies between two machines of a run, deed by deed.
* `Deeds.writes` — without programs, nothing but the written paths changes.
* `Build.writeText_deeds` — a text is written by a single deed.
* `ConfigureDeeds`, `Build.configureVendored_deeds` — what is done to configure the library.
-/

namespace Drydock

/-- Something that changes files. -/
inductive Deed where
  /-- A program is started and ends, or cannot be started. -/
  | start (invocation : Invocation) (result : Except IoError Exit)
  /-- A text is written to a path, behind making the directories above it. -/
  | write (path : Path) (text : String)

/-- The deeds lead from one machine to the other, with nothing but reports between them.  A program
leaves the files that the launcher decides; a text changes its own file, and makes missing
directories above it. -/
inductive Deeds (l : Launcher) : Machine → List Deed → Machine → Prop where
  | none {m stop : Machine} (hlog : Reports m stop) : Deeds l m [] stop
  | start {m before stop : Machine} {i : Invocation} {rest : List Deed} (hlog : Reports m before)
      (hrest : Deeds l ((before.withTree (l before i).2).note (.ran i (l before i).1 false)) rest
        stop) :
      Deeds l m (.start i (l before i).1 :: rest) stop
  | write {m before stop : Machine} {w : Workspace} {p : Path} {text : String} {k : Location}
      {rest : List Deed} (hlog : Reports m before)
      (hwrote : before.workspace.WroteFile w p (Text.Utf8.encode text) k)
      (hrest : Deeds l { before with workspace := w } rest stop) :
      Deeds l m (.write p text :: rest) stop

variable {l : Launcher} {m m' mid start stop : Machine} {ds ds' : List Deed} {p : Path}
  {text : String} {dir : Path} {vars : List ConfigureVariable} {candidates : List String}

namespace Deeds

lemma of_reports (hlog : Reports m mid) (h : Deeds l mid ds stop) : Deeds l m ds stop := by
  cases h with
  | none hmore => exact .none (accrues_reports.trans hlog hmore)
  | start hmore hrest => exact .start (accrues_reports.trans hlog hmore) hrest
  | write hmore hwrote hrest => exact .write (accrues_reports.trans hlog hmore) hwrote hrest

lemma then_reports (h : Deeds l m ds mid) (hlog : Reports mid stop) : Deeds l m ds stop := by
  induction h with
  | none hmore => exact .none (accrues_reports.trans hmore hlog)
  | start hmore _ ih => exact .start hmore (ih hlog)
  | write hmore hwrote _ ih => exact .write hmore hwrote (ih hlog)

lemma append (h : Deeds l m ds mid) (h' : Deeds l mid ds' stop) : Deeds l m (ds ++ ds') stop := by
  induction h with
  | none hlog => exact of_reports hlog h'
  | start hlog _ ih => exact .start hlog (ih h')
  | write hlog hwrote _ ih => exact .write hlog hwrote (ih h')

/-- Without programs nothing is started, and nothing but the written paths changes. -/
lemma writes {texts : List (Path × String)}
    (h : Deeds l m (texts.map fun (p, text) => .write p text) stop) :
    StartsNothing m stop ∧ Workspace.Writes (texts.map (·.1)) m.workspace stop.workspace := by
  induction texts generalizing m with
  | nil =>
      cases h with
      | none hlog =>
          refine ⟨Build.startsNothing_of_reports hlog, ?_⟩
          rw [hlog.workspace]
          exact .refl _
  | cons first rest ih =>
      cases h with
      | write hlog hwrote hrest =>
          obtain ⟨hquiet, hwrites⟩ := ih hrest
          refine ⟨(Build.startsNothing_of_reports hlog).trans hquiet, ?_⟩
          rw [hlog.workspace] at hwrote
          exact hwrote.toWrote.writes.trans hwrites

end Deeds

namespace Build

/-! ## Texts -/

lemma writeText_deeds (h : (writeText p text).run l m = (.ok (), m')) :
    Deeds l m [.write p text] m' := by
  obtain ⟨w, rfl, ⟨k, hwrote⟩, -⟩ := writeText_wrote h
  exact .write (accrues_reports.refl m) hwrote (.none (accrues_reports.refl _))

end Build

/-! ## Configuring the library -/

/-- A program ended well. -/
def EndsWell (result : Except IoError Exit) : Prop := ∃ e, result = .ok e ∧ e.success = true

/-- The configure script is started with some options and ends in some way. -/
def tryDeed (dir : Path) (vars : List ConfigureVariable) (x : String × Except IoError Exit) :
    Deed :=
  .start (Build.configureInvocation dir vars x.1) x.2

/-- The candidates are tried in their order until the script accepts one.  When all of them are
refused the minimal header is written, and only then. -/
inductive ConfigureDeeds (dir : Path) (vars : List ConfigureVariable) (candidates : List String) :
    List Deed → Prop where
  | accepted {refused : List (String × Except IoError Exit)} {options : String}
      {result : Except IoError Exit} {rest : List String}
      (hsplit : candidates = refused.map (·.1) ++ options :: rest)
      (hrefused : ∀ x ∈ refused, ¬ EndsWell x.2) (hok : EndsWell result) :
      ConfigureDeeds dir vars candidates ((refused ++ [(options, result)]).map (tryDeed dir vars))
  | exhausted {refused : List (String × Except IoError Exit)}
      (hall : candidates = refused.map (·.1)) (hrefused : ∀ x ∈ refused, ¬ EndsWell x.2) :
      ConfigureDeeds dir vars candidates (refused.map (tryDeed dir vars) ++
        [.write (Build.configHeaderOf dir) ConfigHeader.minimal])

/-- An attempt with its end. -/
def Attempt.outcome (l : Launcher) (dir : Path) (vars : List ConfigureVariable) (x : Attempt) :
    String × Except IoError Exit := (x.options, x.result l dir vars)

namespace Attempts

variable {xs : List Attempt} {chosen : Option String}

/-- A search does nothing but to start the script. -/
lemma deeds (h : Attempts l dir vars candidates start xs chosen stop) :
    Deeds l start ((xs.map (Attempt.outcome l dir vars)).map (tryDeed dir vars)) stop := by
  induction h with
  | exhausted m => exact .none (accrues_reports.refl m)
  | accepted hlog hok => exact .start hlog (.none (accrues_reports.refl _))
  | next hlog hrefused hwarn hrest ih => exact .start hlog (.of_reports hwarn ih)

/-- A search that finds options ends with them, behind attempts that were refused. -/
lemma outcomes_of_some {options : String}
    (h : Attempts l dir vars candidates start xs (some options) stop) :
    ∃ refused result rest, candidates = refused.map (·.1) ++ options :: rest ∧
      (∀ x ∈ refused, ¬ EndsWell x.2) ∧ EndsWell result ∧
      xs.map (Attempt.outcome l dir vars) = refused ++ [(options, result)] := by
  obtain ⟨rest, hrest⟩ := h.options_prefix
  obtain ⟨front, x, rfl, rfl, hok, hfront⟩ := h.exists_accepted
  refine ⟨front.map (Attempt.outcome l dir vars), x.result l dir vars, rest, ?_,
    List.forall_mem_map.2 hfront, hok, List.map_append⟩
  rw [← hrest, List.map_append, List.append_assoc, List.map_map]
  rfl

lemma outcomes_of_none (h : Attempts l dir vars candidates start xs none stop) :
    candidates = (xs.map (Attempt.outcome l dir vars)).map (·.1) ∧
      ∀ x ∈ xs.map (Attempt.outcome l dir vars), ¬ EndsWell x.2 := by
  obtain ⟨hall, hnone⟩ := h.all_refused
  refine ⟨?_, List.forall_mem_map.2 hnone⟩
  rw [← hall, List.map_map]
  rfl

end Attempts

namespace Build

variable {v : Vendored} {s : Settings} {d : CompilerDefaults} {chosen : Option String}

lemma configureVendored_deeds
    (h : (configureVendored v dir s d).run l start = (.ok chosen, stop)) :
    ∃ ds, Deeds l start ds stop ∧
      ConfigureDeeds dir (configureVariables s.tools d)
        (configureCandidates (Resolution.preferredOptions s v) v.configureFallbacks) ds := by
  rw [configureVendored, run_bind_of_eq_ok (run_log _ _)] at h
  obtain ⟨_, before, hvariables, h⟩ := run_bind_eq_ok.1 h
  obtain ⟨accepted, configured, hsearch, h⟩ := run_bind_eq_ok.1 h
  have hlog : Reports start before := accrues_reports.trans (.log _ _)
    ((keeps_logAll accrues_reports _ _).of_run hvariables)
  obtain ⟨xs, hattempts⟩ := configureLibrary_eq_ok hsearch
  have hstarts := Deeds.of_reports hlog hattempts.deeds
  cases accepted with
  | some options =>
      obtain ⟨refused, result, rest, hsplit, hrefused, hok, hxs⟩ := hattempts.outcomes_of_some
      dsimp only at h
      rw [run_bind_of_eq_ok (run_log _ _)] at h
      obtain ⟨-, rfl⟩ := run_pure_eq_ok.1 h
      rw [hxs] at hstarts
      exact ⟨_, hstarts.then_reports (.log _ _), .accepted hsplit hrefused hok⟩
  | none =>
      obtain ⟨hall, hrefused⟩ := hattempts.outcomes_of_none
      dsimp only at h
      rw [run_bind_of_eq_ok (run_log _ _)] at h
      obtain ⟨_, written, hwrite, h⟩ := run_bind_eq_ok.1 h
      obtain ⟨-, rfl⟩ := run_pure_eq_ok.1 h
      rw [writeMinimalHeader, run_bind_of_eq_ok (run_log _ _)] at hwrite
      have hheader := Deeds.of_reports (accrues_reports.trans (.log _ _) (.log _ _))
        (writeText_deeds hwrite)
      exact ⟨_, hstarts.append hheader, .exhausted hall hrefused⟩

end Build

end Drydock
