import Defender.Lifecycle.Workers

/-!
# Rows under their tenants' locks

What every row has, and what every worker has of the row it holds, through each move of
the system. No two workers hold one tenant, so a move of one leaves what another has.
-/

namespace Defender.Lifecycle

open Defender.Python Defender.Tenancy

structure Consistent (good : Str → TenantRows → Prop) (fits : Worker → TenantRows → Prop)
    (system : System) : Prop where
  rows : ∀ tenant rows, system.store tenant = some rows → good tenant rows
  workers : ∀ id worker, system.workers id = some worker →
    system.locked worker.tenant = true ∧
      ∃ rows, system.store worker.tenant = some rows ∧ fits worker rows
  alone : ∀ left right one other, system.workers left = some one →
    system.workers right = some other → one.tenant = other.tenant → left = right

section Table

variable {Key Value : Type} [DecidableEq Key] {table : Key → Value} {key other : Key}
  {value : Value}

theorem put_here (table : Key → Value) (key : Key) (value : Value) :
    put table key value key = value := if_pos rfl

theorem put_other (different : other ≠ key) : put table key value other = table other :=
  if_neg different

theorem put_same (is : table key = value) : put table key value = table := by
  funext other
  unfold put
  split_ifs with same
  · rw [same, is]
  · rfl

end Table

section Moves

variable {good : Str → TenantRows → Prop} {fits : Worker → TenantRows → Prop} {system : System}
  {id : Nat} {worker next : Worker} {rows after : TenantRows} {tenant : Str}

theorem consistent_empty : Consistent good fits System.empty where
  rows := fun _ _ stored => nomatch stored
  workers := fun _ _ running => nomatch running
  alone := fun _ _ _ _ running => nomatch running

theorem Consistent.stopped (kept : Consistent good fits system)
    (here : system.workers id = some worker) :
    Consistent good fits (system.stop id worker) where
  rows := kept.rows
  workers := by
    intro other running here_running
    change put system.workers id none other = some running at here_running
    have different : other ≠ id := by
      intro same
      rw [same, put_here] at here_running
      cases here_running
    rw [put_other different] at here_running
    obtain ⟨locked, fit⟩ := kept.workers other running here_running
    refine ⟨?_, fit⟩
    have apart : running.tenant ≠ worker.tenant := fun same =>
      different (kept.alone other id running worker here_running here same)
    exact (put_other apart).trans locked
  alone := by
    intro left right one other one_runs other_runs same
    change put system.workers id none left = some one at one_runs
    change put system.workers id none right = some other at other_runs
    unfold put at one_runs other_runs
    split_ifs at one_runs other_runs
    exact kept.alone left right one other one_runs other_runs same

/-- A worker's own move: it keeps its tenant, whose rows may have changed with it, and what
the workers of other tenants have may change too. -/
theorem Consistent.rewritten {fits' : Worker → TenantRows → Prop}
    (kept : Consistent good fits system) (here : system.workers id = some worker)
    (same : next.tenant = worker.tenant) (fine : good worker.tenant after)
    (fit : fits' next after)
    (closer : ∀ other running rows, system.workers other = some running →
      running.tenant ≠ worker.tenant → system.store running.tenant = some rows →
      fits running rows → fits' running rows) :
    Consistent good fits'
      { system.writeRows worker.tenant after with
        workers := put system.workers id (some next) } where
  rows := by
    intro tenant rows stored
    change put system.store worker.tenant (some after) tenant = some rows at stored
    unfold put at stored
    split_ifs at stored with is
    · rw [← Option.some.inj stored, is]
      exact fine
    · exact kept.rows tenant rows stored
  workers := by
    intro other running here_running
    change put system.workers id (some next) other = some running at here_running
    show system.locked running.tenant = true ∧
      ∃ rows, put system.store worker.tenant (some after) running.tenant = some rows ∧ _
    by_cases is : other = id
    · rw [is, put_here] at here_running
      rw [← Option.some.inj here_running, same]
      exact ⟨(kept.workers id worker here).1, after, put_here _ _ _, fit⟩
    · rw [put_other is] at here_running
      obtain ⟨locked, rows, stored, fit⟩ := kept.workers other running here_running
      have apart : running.tenant ≠ worker.tenant := fun same =>
        is (kept.alone other id running worker here_running here same)
      exact ⟨locked, rows, (put_other apart).trans stored,
        closer other running rows here_running apart stored fit⟩
  alone := by
    intro left right one other one_runs other_runs match_up
    change put system.workers id (some next) left = some one at one_runs
    change put system.workers id (some next) right = some other at other_runs
    unfold put at one_runs other_runs
    split_ifs at one_runs other_runs with one_is other_is other_is
    · exact one_is.trans other_is.symm
    · rw [← Option.some.inj one_runs, same] at match_up
      exact one_is.trans (kept.alone id right worker other here other_runs match_up)
    · rw [← Option.some.inj other_runs, same] at match_up
      exact (kept.alone left id one worker one_runs here match_up).trans other_is.symm
    · exact kept.alone left right one other one_runs other_runs match_up

theorem Consistent.written (kept : Consistent good fits system)
    (here : system.workers id = some worker) (same : next.tenant = worker.tenant)
    (fine : good worker.tenant after) (fit : fits next after) :
    Consistent good fits
      { system.writeRows worker.tenant after with
        workers := put system.workers id (some next) } :=
  kept.rewritten here same fine fit fun _ _ _ _ _ _ fit => fit

theorem Consistent.remoted {fits' : Worker → TenantRows → Prop}
    (kept : Consistent good fits system) (here : system.workers id = some worker)
    (same : next.tenant = worker.tenant) (stored : system.store worker.tenant = some rows)
    (fit : fits' next rows)
    (closer : ∀ other running rows, system.workers other = some running →
      running.tenant ≠ worker.tenant → system.store running.tenant = some rows →
      fits running rows → fits' running rows) :
    Consistent good fits' { system with workers := put system.workers id (some next) } := by
  have written := kept.rewritten here same (kept.rows _ _ stored) fit closer
  unfold System.writeRows at written
  rw [put_same stored] at written
  exact written

theorem Consistent.moved (kept : Consistent good fits system)
    (here : system.workers id = some worker) (same : next.tenant = worker.tenant)
    (stored : system.store worker.tenant = some rows) (fit : fits next rows) :
    Consistent good fits { system with workers := put system.workers id (some next) } :=
  kept.remoted here same stored fit fun _ _ _ _ _ _ fit => fit

theorem Consistent.written_free (kept : Consistent good fits system)
    (unheld : ∀ id worker, system.workers id = some worker → worker.tenant ≠ tenant)
    (fine : good tenant after) : Consistent good fits (system.writeRows tenant after) where
  rows := by
    intro other found there
    change put system.store tenant (some after) other = some found at there
    unfold put at there
    split_ifs at there with is
    · rw [← Option.some.inj there, is]
      exact fine
    · exact kept.rows other found there
  workers := by
    intro other running here_running
    obtain ⟨locked, rows, stored, fit⟩ := kept.workers other running here_running
    exact ⟨locked, rows, (put_other (unheld other running here_running)).trans stored, fit⟩
  alone := kept.alone

theorem Consistent.created (kept : Consistent good fits system)
    (fresh : system.store tenant = none) (fine : good tenant after) :
    Consistent good fits (system.writeRows tenant after) := by
  apply kept.written_free _ fine
  intro other running here_running is
  obtain ⟨_, rows, stored, _⟩ := kept.workers other running here_running
  rw [is, fresh] at stored
  cases stored

theorem Consistent.written_stopped (kept : Consistent good fits system)
    (here : system.workers id = some worker) (fine : good worker.tenant after) :
    Consistent good fits ((system.writeRows worker.tenant after).stop id worker) := by
  apply (kept.stopped here).written_free _ fine
  intro other running here_running same
  change put system.workers id none other = some running at here_running
  unfold put at here_running
  split_ifs at here_running with is
  exact is (kept.alone other id running worker here_running here same)

theorem Consistent.requested (kept : Consistent good fits system)
    (stored : system.store tenant = some rows) (fine : good tenant after)
    (fit : ∀ worker, fits worker rows → fits worker after) :
    Consistent good fits (system.writeRows tenant after) where
  rows := by
    intro other found there
    change put system.store tenant (some after) other = some found at there
    unfold put at there
    split_ifs at there with is
    · rw [← Option.some.inj there, is]
      exact fine
    · exact kept.rows other found there
  workers := by
    intro other running here_running
    obtain ⟨locked, held, held_stored, holds⟩ := kept.workers other running here_running
    refine ⟨locked, ?_⟩
    show ∃ rows, put system.store tenant (some after) running.tenant = some rows ∧ _
    by_cases is : running.tenant = tenant
    · rw [is] at held_stored ⊢
      have same : held = rows := Option.some.inj (held_stored.symm.trans stored)
      subst same
      exact ⟨after, put_here _ _ _, fit running holds⟩
    · exact ⟨held, (put_other is).trans held_stored, holds⟩
  alone := kept.alone

theorem Consistent.taken (kept : Consistent good fits system)
    (free : system.locked worker.tenant = false)
    (stored : system.store worker.tenant = some rows) (fit : fits worker rows) :
    Consistent good fits
      { system with
        locked := put system.locked worker.tenant true
        workers := put system.workers id (some worker) } := by
  have unheld : ∀ other running, system.workers other = some running →
      running.tenant ≠ worker.tenant := by
    intro other running here_running same
    have locked := (kept.workers other running here_running).1
    rw [same, free] at locked
    cases locked
  exact {
    rows := kept.rows
    workers := by
      intro other running here_running
      change put system.workers id (some worker) other = some running at here_running
      show put system.locked worker.tenant true running.tenant = true ∧ _
      by_cases is : other = id
      · rw [is, put_here] at here_running
        rw [← Option.some.inj here_running]
        exact ⟨put_here _ _ _, rows, stored, fit⟩
      · rw [put_other is] at here_running
        obtain ⟨locked, fit⟩ := kept.workers other running here_running
        exact ⟨(put_other (unheld other running here_running)).trans locked, fit⟩
    alone := by
      intro left right one other one_runs other_runs match_up
      change put system.workers id (some worker) left = some one at one_runs
      change put system.workers id (some worker) right = some other at other_runs
      unfold put at one_runs other_runs
      split_ifs at one_runs other_runs with one_is other_is other_is
      · exact one_is.trans other_is.symm
      · rw [← Option.some.inj one_runs] at match_up
        exact absurd match_up.symm (unheld right other other_runs)
      · rw [← Option.some.inj other_runs] at match_up
        exact absurd match_up (unheld left one one_runs)
      · exact kept.alone left right one other one_runs other_runs match_up }

end Moves

end Defender.Lifecycle
