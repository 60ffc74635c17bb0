import Defender.Tenancy.HostHolds

/-!
# What teardown sees of the processes of a tenant

Every step keeps the invariant of the host unless a sweep comes to remove a record it could not
judge: one it found missing and the process wrote anew since, or one it could not read.
-/

namespace Defender.Tenancy.HostLock

variable {host after : Host} {holder : Holder}

namespace Host

/-- A sweep is about to remove a record it did not see while the process runs and has it. -/
def disturbs (host : Host) : Act → Bool
  | .sweep sweep _ =>
      match host.sweeps sweep with
      | .removing entry true _ _ => host.runs entry && decide (entry ∈ host.registry)
      | _ => false
  | _ => false

def undisturbed : List Act → Host → Bool
  | [], _ => true
  | act :: rest, host =>
      !host.disturbs act && ((host.step act).map (undisturbed rest)).getD true

/-- The states of a run, the first one included. -/
def visited : List Act → Host → List Host
  | [], host => [host]
  | act :: rest, host => host :: ((host.step act).map (visited rest)).getD []

variable (host : Host)

/-- The process holds the lock through `hold_shared` or is waiting for it. -/
def Attached (holder : Holder) : Prop :=
  host.runs holder = true ∧ (host.fds holder ≠ [] ∨
    (host.memory holder).gate = some .recorded ∨ (host.memory holder).gate = some .waiting)

instance (holder : Holder) : Decidable (host.Attached holder) :=
  inferInstanceAs (Decidable (_ ∧ _))

structure HoldersVisible : Prop where
  locked : ∀ holder hold, host.runs holder = true → 0 < (host.memory holder).opened hold →
    (holder, hold) ∈ host.shared ∧ host.exclusive = none
  recorded : ∀ holder, host.Attached holder → holder ∈ host.registry
  outlast : ∀ holder hold, host.runs holder = true →
    0 < (host.memory holder).opened hold + (host.memory holder).leaving hold →
    host.fds holder = [hold] ∧ holder ∈ host.registry
  gone : ∀ holder, host.runs holder = true → (host.memory holder).gate = none →
    (∀ hold, (host.memory holder).opened hold = 0 ∧ (host.memory holder).leaving hold = 0) →
    host.fds holder = [] ∧ holder ∉ host.registry

/-- A call of `holders` lists a process that is attached from before it reads the registry until
it returns. -/
def Lists : Prop :=
  ∀ sweep more after holder found, run (.list sweep :: more) host = some after →
    undisturbed (.list sweep :: more) host = true → .list sweep ∉ more →
    (∀ mid ∈ visited (.list sweep :: more) host, mid.Attached holder) →
    after.sweeps sweep = .returned found → holder ∈ found

end Host

open Host

theorem runs_iff : host.runs holder = true ↔ host.running holder.pid = some holder.start := by
  simp [Host.runs]

theorem start_kept : Host.start.Kept where
  apart := fun taken => absurd rfl taken
  running_born := fun _ runs => by simp [Host.start, Host.runs] at runs
  recorded_born := fun _ written => nomatch written
  unborn := fun _ _ => rfl
  held_runs := fun _ _ held => nomatch held
  sweeps := fun _ => trivial
  coherent := fun _ runs => by simp [Host.start, Host.runs] at runs

theorem own_runs (own : Own holder host after) (other : Holder) :
    after.runs other = host.runs other := by
  unfold Host.runs
  rw [own.running]

theorem sweep_kept_later {sweep : Sweep} (kept : host.SweepKept sweep)
    (born : ∀ other ∈ host.born, other ∈ after.born)
    (gone : ∀ other ∈ host.born, host.runs other = false → after.runs other = false) :
    after.SweepKept sweep := by
  cases sweep with
  | returned found => trivial
  | reading entries found => trivial
  | checking entry entries found => exact born entry kept
  | removing entry unseen entries found =>
      intro present
      obtain ⟨known, stopped⟩ := kept present
      exact ⟨born entry known, gone entry known stopped⟩

theorem own_kept (known : host.Kept) (own : Own holder host after)
    (runs : host.runs holder = true) (coherent : after.CoherentAt holder) : after.Kept where
  apart := by
    intro taken
    rw [own.exclusive] at taken
    have alone := own.excluded taken
    rw [known.apart taken] at alone
    exact List.eq_nil_iff_forall_not_mem.mpr fun lock held => nomatch alone lock held
  running_born := by
    intro other running
    rw [own_runs own] at running
    rw [own.born]
    exact known.running_born other running
  recorded_born := by
    intro other written
    rw [own.born]
    by_cases same : other = holder
    · rw [same]
      exact known.running_born holder runs
    · exact known.recorded_born other ((own.record other same).mp written)
  unborn := by
    intro other unborn
    rw [own.born] at unborn
    have different : other ≠ holder := by
      intro same
      rw [same] at unborn
      exact unborn (known.running_born holder runs)
    rw [own.memory other different]
    exact known.unborn other unborn
  held_runs := by
    intro other fd held
    rw [own_runs own]
    rcases own.shared _ held with old | new
    · exact known.held_runs other fd old
    · have same : other = holder := new
      rw [same]
      exact runs
  sweeps := by
    intro sweep
    rw [own.sweeps]
    refine sweep_kept_later (known.sweeps sweep) ?_ ?_
    · intro other born
      rwa [own.born]
    · intro other _ stopped
      rwa [own_runs own]
  coherent := by
    intro other running
    by_cases same : other = holder
    · rw [same]
      exact coherent
    · rw [own_runs own] at running
      have held := known.coherent other running
      unfold Host.CoherentAt at held ⊢
      rw [own.memory other same, own.fds other same, propext (own.record other same)]
      exact held

theorem unborn_free (known : host.Kept) (unborn : holder ∉ host.born) :
    host.fds holder = [] ∧ holder ∉ host.registry := by
  constructor
  · unfold Host.fds
    rw [List.map_eq_nil_iff, List.filter_eq_nil_iff]
    intro lock held owned
    have same : lock.1 = holder := of_decide_eq_true owned
    have runs := known.held_runs lock.1 lock.2 held
    rw [same] at runs
    exact unborn (known.running_born holder runs)
  · intro written
    exact unborn (known.recorded_born holder written)

theorem set_sweep_kept (known : host.Kept) (sweep : Nat) {next : Sweep}
    (kept : host.SweepKept next) : (host.setSweep sweep next).Kept where
  apart := known.apart
  running_born := known.running_born
  recorded_born := known.recorded_born
  unborn := known.unborn
  held_runs := known.held_runs
  sweeps := by
    intro other
    have shown : host.SweepKept ((host.setSweep sweep next).sweeps other) := by
      unfold Host.setSweep
      by_cases same : other = sweep
      · simpa [same] using kept
      · simpa [same] using known.sweeps other
    exact sweep_kept_later shown (fun _ born => born) (fun _ _ stopped => stopped)
  coherent := known.coherent

theorem unlink_kept (known : host.Kept) (stale : host.runs holder = true → holder ∉ host.registry) :
    (host.unlink holder).Kept where
  apart := known.apart
  running_born := known.running_born
  recorded_born := fun other written =>
    known.recorded_born other ((mem_unlink host holder other).mp written).2
  unborn := known.unborn
  held_runs := known.held_runs
  sweeps := known.sweeps
  coherent := by
    intro other running
    have same : (other ∈ (host.unlink holder).registry) = (other ∈ host.registry) := by
      rw [eq_iff_iff, mem_unlink]
      constructor
      · exact fun both => both.2
      · intro written
        refine ⟨?_, written⟩
        intro equal
        rw [equal] at running written
        exact stale running written
    have held := known.coherent other running
    unfold Host.CoherentAt at held ⊢
    rw [same]
    exact held

theorem swept_kept (known : host.Kept) (sweep : Nat) (unreadable : Bool)
    (quiet : host.disturbs (.sweep sweep unreadable) = false) :
    (host.swept sweep unreadable (host.sweeps sweep)).Kept := by
  have kept := known.sweeps sweep
  cases current : host.sweeps sweep with
  | returned found => exact known
  | reading entries found =>
      cases entries with
      | nil => exact set_sweep_kept known sweep trivial
      | cons entry entries =>
          simp only [Host.swept]
          split
          · rename_i present
            exact set_sweep_kept known sweep (known.recorded_born entry present.1)
          · exact set_sweep_kept known sweep nofun
  | checking entry entries found =>
      rw [current] at kept
      simp only [Host.swept]
      split
      · exact set_sweep_kept known sweep trivial
      · rename_i stopped
        refine set_sweep_kept known sweep ?_
        intro seen
        refine ⟨kept, Bool.eq_false_iff.mpr ?_⟩
        exact fun runs => stopped ⟨runs, by rw [seen, Bool.not_false]⟩
  | removing entry unseen entries found =>
      rw [current] at kept
      have stale : host.runs entry = true → entry ∉ host.registry := by
        intro running
        cases unseen with
        | false =>
            have stopped := (kept rfl).2
            rw [running] at stopped
            contradiction
        | true => simpa [Host.disturbs, current, running] using quiet
      exact set_sweep_kept (unlink_kept known stale) sweep trivial

theorem spawned_runs {pid : Nat} {start : Python.Str} {other : Holder}
    (runs : (if other.pid = pid then some start else host.running other.pid) = some other.start) :
    other = ⟨pid, start⟩ ∨ host.runs other = true := by
  by_cases same : other.pid = pid
  · rw [if_pos same, Option.some.injEq] at runs
    left
    cases other
    simp_all
  · rw [if_neg same] at runs
    right
    simpa [Host.runs] using runs

theorem spawn_kept (known : host.Kept) {pid : Nat} {start : Python.Str}
    (spawned : host.step (.spawn pid start) = some after) : after.Kept := by
  simp only [Host.step, Option.ite_none_right_eq_some] at spawned
  obtain ⟨⟨free, new⟩, spawned⟩ := spawned
  cases spawned
  have still : ∀ other : Holder, host.runs other = true →
      (if other.pid = pid then some start else host.running other.pid) = some other.start := by
    intro other runs
    have named : host.running other.pid = some other.start := of_decide_eq_true runs
    have apart : other.pid ≠ pid := by
      intro same
      rw [same, free] at named
      cases named
    rwa [if_neg apart]
  exact {
    apart := known.apart
    running_born := by
      intro other runs
      rcases spawned_runs (of_decide_eq_true runs) with same | old
      · simp [same]
      · exact List.mem_append_left _ (known.running_born other old)
    recorded_born := fun other written =>
      List.mem_append_left _ (known.recorded_born other written)
    unborn := fun other unborn =>
      known.unborn other fun born => unborn (List.mem_append_left _ born)
    held_runs := fun other fd held => decide_eq_true (still other (known.held_runs other fd held))
    sweeps := by
      intro sweep
      refine sweep_kept_later (known.sweeps sweep) (fun _ born => List.mem_append_left _ born) ?_
      intro other born stopped
      rw [Bool.eq_false_iff] at stopped ⊢
      intro runs
      rcases spawned_runs (of_decide_eq_true runs) with same | old
      · exact new (same ▸ born)
      · exact stopped old
    coherent := by
      intro other runs
      rcases spawned_runs (of_decide_eq_true runs) with same | old
      · obtain ⟨none_held, unwritten⟩ := unborn_free known new
        have absent : (⟨pid, start⟩ ∈ host.registry) = False := eq_false unwritten
        have coherent := coherent_start
        rw [← known.unborn _ new, ← none_held, ← absent] at coherent
        rw [same]
        exact coherent
      · exact known.coherent other old }

theorem died_kept (known : host.Kept) {pid : Nat} {start : Python.Str}
    (named : host.running pid = some start) : (host.died ⟨pid, start⟩).Kept := by
  have survives : ∀ other, (host.died ⟨pid, start⟩).runs other = true ↔
      host.runs other = true ∧ other ≠ ⟨pid, start⟩ := by
    intro other
    have left : (host.died ⟨pid, start⟩).running other.pid =
      if other.pid = pid then none else host.running other.pid := rfl
    rw [runs_iff, runs_iff, left]
    by_cases same : other.pid = pid
    · rw [if_pos same, same, named]
      constructor
      · exact nofun
      · intro both
        exfalso
        apply both.2
        cases other
        simp_all
    · rw [if_neg same]
      constructor
      · intro runs
        refine ⟨runs, ?_⟩
        intro equal
        exact same (by rw [equal])
      · exact fun both => both.1
  exact {
    apart := by
      intro taken
      have none_held : host.shared = [] := by
        apply known.apart
        intro free
        exact taken (by simp [Host.died, free])
      simp [Host.died, none_held]
    running_born := fun other runs => known.running_born other ((survives other).mp runs).1
    recorded_born := known.recorded_born
    unborn := known.unborn
    held_runs := by
      intro other fd held
      obtain ⟨old, different⟩ := List.mem_filter.mp held
      exact (survives other).mpr ⟨known.held_runs other fd old, of_decide_eq_true different⟩
    sweeps := by
      intro sweep
      refine sweep_kept_later (known.sweeps sweep) (fun _ born => born) ?_
      intro other _ stopped
      rw [Bool.eq_false_iff] at stopped ⊢
      exact fun runs => stopped ((survives other).mp runs).1
    coherent := by
      intro other runs
      obtain ⟨old, different⟩ := (survives other).mp runs
      have same : (host.died ⟨pid, start⟩).fds other = host.fds other := by
        unfold Host.fds Host.died
        simp only [List.filter_filter]
        congr 1
        apply List.filter_congr
        intro lock _
        by_cases owned : lock.1 = other
        · simp [owned, different]
        · simp [owned]
      have coherent := known.coherent other old
      unfold Host.CoherentAt at coherent ⊢
      rw [same]
      exact coherent }

theorem step_kept (known : host.Kept) {act : Act} (quiet : host.disturbs act = false)
    (taken : host.step act = some after) : after.Kept := by
  cases act with
  | spawn pid start => exact spawn_kept known taken
  | die pid =>
      obtain ⟨start, named, taken⟩ := Option.map_eq_some_iff.mp taken
      cases taken
      exact died_kept known named
  | attemptExclusive holder =>
      simp only [Host.step] at taken
      split at taken
      · cases taken
      · split at taken
        · rename_i free
          cases taken
          exact { known with
            apart := fun _ => free.2
            sweeps := fun sweep => sweep_kept_later (known.sweeps sweep) (fun _ born => born)
              (fun _ _ stopped => stopped) }
        · cases taken
          exact known
  | releaseExclusive =>
      cases taken
      exact { known with
        apart := fun held => absurd rfl held
        sweeps := fun sweep => sweep_kept_later (known.sweeps sweep) (fun _ born => born)
          (fun _ _ stopped => stopped) }
  | move holder move =>
      simp only [Host.step, Option.ite_none_right_eq_some] at taken
      obtain ⟨runs, moved⟩ := taken
      have own := moved_own host holder move moved
      exact own_kept known own runs (moved_coherent (known.coherent holder runs) moved)
  | list sweep =>
      cases taken
      exact set_sweep_kept known sweep trivial
  | sweep sweep unreadable =>
      cases taken
      exact swept_kept known sweep unreadable quiet

theorem undisturbed_cons {act : Act} {rest : List Act}
    (quiet : undisturbed (act :: rest) host = true) (taken : host.step act = some after) :
    host.disturbs act = false ∧ undisturbed rest after = true := by
  simpa [undisturbed, taken] using quiet

theorem run_kept {acts : List Act} (known : host.Kept) (quiet : undisturbed acts host = true)
    (reached : Host.run acts host = some after) : after.Kept := by
  induction acts generalizing host with
  | nil =>
      cases reached
      exact known
  | cons act rest ih =>
      obtain ⟨next, taken, reached⟩ := Option.bind_eq_some_iff.mp reached
      obtain ⟨calm, quiet⟩ := undisturbed_cons quiet taken
      exact ih (step_kept known calm taken) quiet reached

theorem attached_recorded (known : host.Kept) (attached : host.Attached holder) :
    holder ∈ host.registry := by
  obtain ⟨runs, held⟩ := attached
  have staged := (known.coherent holder runs).staged
  revert staged held
  cases (host.memory holder).gate with
  | none =>
      cases taken : (host.memory holder).table with
      | none => simp_all [Staged, Rested]
      | some hold => simp_all [Staged, Rested]
  | some stage =>
      cases taken : (host.memory holder).table with
      | none => cases stage <;> simp_all [Staged, Rested]
      | some hold => cases stage <;> simp_all [Staged, Rested]

theorem kept_visible (known : host.Kept) : host.HoldersVisible where
  locked := by
    intro holder hold runs body
    have scope : 0 < (host.memory holder).held hold := by
      unfold Memory.held
      omega
    have held := (scope_recorded (known.coherent holder runs) scope).1
    have present : (holder, hold) ∈ host.shared := by
      have listed : hold ∈ host.fds holder := by simp [held]
      simpa [Host.fds] using listed
    refine ⟨present, ?_⟩
    by_contra taken
    rw [known.apart taken] at present
    cases present
  recorded := fun holder attached => attached_recorded known attached
  outlast := by
    intro holder hold runs scope
    apply scope_recorded (known.coherent holder runs)
    unfold Memory.held
    omega
  gone := by
    intro holder runs gate ended
    have coherent := known.coherent holder runs
    have staged := coherent.staged
    have nothing : (host.memory holder).table = none := by
      rw [Option.eq_none_iff_forall_ne_some]
      intro hold taken
      apply coherent.kept hold taken
      have counted := coherent.counted hold
      rw [if_pos taken] at counted
      simp [← counted, Memory.held, Memory.due, gate, ended hold]
    rw [gate] at staged
    simpa [Staged, Rested, nothing] using staged

/-- The sweep has found the process or has its record still to read, or comes to remove it
unseen. -/
def Sweep.Meets (holder : Holder) : Sweep → Prop
  | .returned found => holder ∈ found
  | .reading entries found => holder ∈ entries ∨ holder ∈ found
  | .checking entry entries found => holder = entry ∨ holder ∈ entries ∨ holder ∈ found
  | .removing entry unseen entries found =>
      unseen = true ∧ holder = entry ∨ holder ∈ entries ∨ holder ∈ found

theorem swept_meets (sweep : Nat) (unreadable : Bool) (runs : host.runs holder = true)
    (written : holder ∈ host.registry) (quiet : host.disturbs (.sweep sweep unreadable) = false)
    {current : Sweep} (kept : host.sweeps sweep = current) (meets : current.Meets holder) :
    ((host.swept sweep unreadable current).sweeps sweep).Meets holder := by
  cases current with
  | returned found => rwa [Host.swept, kept]
  | reading entries found =>
      cases entries with
      | nil => simpa [Host.swept, Host.setSweep, Sweep.Meets] using meets
      | cons entry entries =>
          simp only [Host.swept]
          split
          · simpa [Host.setSweep, Sweep.Meets, or_assoc] using meets
          · simpa [Host.setSweep, Sweep.Meets, or_assoc] using meets
  | checking entry entries found =>
      simp only [Host.swept]
      split
      · simpa [Host.setSweep, Sweep.Meets, or_comm, or_left_comm] using meets
      · rename_i stopped
        have unseen : holder = entry → unreadable = true := by
          intro same
          subst same
          simpa [runs] using stopped
        simp only [Host.setSweep, if_true, Sweep.Meets] at meets ⊢
        rcases meets with same | later
        · exact Or.inl ⟨unseen same, same⟩
        · exact Or.inr later
  | removing entry unseen entries found =>
      simp only [Host.swept, Host.setSweep, if_true, Sweep.Meets] at meets ⊢
      rcases meets with ⟨unjudged, same⟩ | later
      · subst unjudged same
        simp [Host.disturbs, kept, runs, written] at quiet
      · exact later

theorem swept_other {sweep other : Nat} (unreadable : Bool) (current : Sweep)
    (different : other ≠ sweep) :
    (host.swept sweep unreadable current).sweeps other = host.sweeps other := by
  cases current with
  | returned found => rfl
  | reading entries found =>
      cases entries with
      | nil => simp [Host.swept, Host.setSweep, different]
      | cons entry entries =>
          simp only [Host.swept]
          split <;> simp [Host.setSweep, different]
  | checking entry entries found =>
      simp only [Host.swept]
      split <;> simp [Host.setSweep, different]
  | removing entry unseen entries found =>
      simp [Host.swept, Host.setSweep, Host.unlink, different]

theorem step_meets {act : Act} {sweep : Nat} (taken : host.step act = some after)
    (same : act ≠ .list sweep) (quiet : host.disturbs act = false)
    (runs : host.runs holder = true) (written : holder ∈ host.registry)
    (meets : (host.sweeps sweep).Meets holder) : (after.sweeps sweep).Meets holder := by
  cases act with
  | spawn pid start =>
      simp only [Host.step, Option.ite_none_right_eq_some] at taken
      obtain ⟨-, taken⟩ := taken
      cases taken
      exact meets
  | die pid =>
      obtain ⟨start, -, taken⟩ := Option.map_eq_some_iff.mp taken
      cases taken
      exact meets
  | attemptExclusive other =>
      simp only [Host.step] at taken
      split at taken
      · cases taken
      · split at taken
        · cases taken
          exact meets
        · cases taken
          exact meets
  | releaseExclusive =>
      cases taken
      exact meets
  | move other move =>
      simp only [Host.step, Option.ite_none_right_eq_some] at taken
      rw [(moved_own host other move taken.2).sweeps]
      exact meets
  | list other =>
      cases taken
      have different : sweep ≠ other := fun equal => same (equal ▸ rfl)
      simpa [Host.setSweep, different] using meets
  | sweep other unreadable =>
      cases taken
      by_cases equal : sweep = other
      · subst equal
        exact swept_meets sweep unreadable runs written quiet rfl meets
      · rw [swept_other _ _ equal]
        exact meets

theorem run_meets {acts : List Act} {sweep : Nat} (known : host.Kept)
    (quiet : undisturbed acts host = true) (reached : Host.run acts host = some after)
    (same : .list sweep ∉ acts) (attached : ∀ mid ∈ visited acts host, mid.Attached holder)
    (meets : (host.sweeps sweep).Meets holder) : (after.sweeps sweep).Meets holder := by
  induction acts generalizing host with
  | nil =>
      cases reached
      exact meets
  | cons act rest ih =>
      obtain ⟨next, taken, reached⟩ := Option.bind_eq_some_iff.mp reached
      obtain ⟨calm, quiet⟩ := undisturbed_cons quiet taken
      have now : host.Attached holder := attached host (List.mem_cons_self ..)
      have first : act ≠ .list sweep := fun equal => same (equal ▸ List.mem_cons_self ..)
      have later : ∀ mid ∈ visited rest next, mid.Attached holder := by
        intro mid visited
        apply attached mid
        rw [Host.visited, taken]
        exact List.mem_cons_of_mem _ visited
      have written := attached_recorded known now
      exact ih (step_kept known calm taken) quiet reached
        (fun listed => same (List.mem_cons_of_mem _ listed)) later
        (step_meets taken first calm now.1 written meets)

theorem kept_lists (known : host.Kept) : host.Lists := by
  intro sweep more after holder found reached quiet same attached returned
  obtain ⟨next, taken, reached⟩ := Option.bind_eq_some_iff.mp reached
  obtain ⟨calm, quiet⟩ := undisturbed_cons quiet taken
  have now : host.Attached holder := attached host (List.mem_cons_self ..)
  have later : ∀ mid ∈ visited more next, mid.Attached holder := by
    intro mid visited
    apply attached mid
    rw [Host.visited, taken]
    exact List.mem_cons_of_mem _ visited
  have listed : (next.sweeps sweep).Meets holder := by
    cases taken
    simpa [Host.setSweep, Sweep.Meets, Host.listed] using attached_recorded known now
  have meets := run_meets (step_kept known calm taken) quiet reached same later listed
  rwa [returned] at meets

/-- Teardown sees every process that works for the tenant, in every state of a run in which no
sweep removes a record unseen while its process runs. -/
theorem holders_visible (acts : List Act) (host : Host) (reached : run acts Host.start = some host)
    (quiet : undisturbed acts Host.start = true) : host.HoldersVisible ∧ host.Lists := by
  have known := run_kept start_kept quiet reached
  exact ⟨kept_visible known, kept_lists known⟩

def entering : List Act :=
  .spawn 7 "40".toList :: ([.enter, .gateToEnter, .proceed false, .proceed false, .proceed false,
    .proceed false, .proceed false].map (Act.move ⟨7, "40".toList⟩))

def sweeping : List Act := [.list 0, .sweep 0 false, .sweep 0 false, .sweep 0 false]

theorem run_checked {acts : List Act} {check : Host → Bool}
    (checked : ((run acts Host.start).map check).getD false = true)
    (reached : run acts Host.start = some host) : check host = true := by
  rwa [reached] at checked

theorem entered_listed : ∃ host after, run entering Host.start = some host ∧
    run sweeping host = some after ∧
    host.HoldersVisible ∧ ∃ found, after.sweeps 0 = .returned found ∧ ⟨7, "40".toList⟩ ∈ found := by
  have entered : (run entering Host.start).isSome = true := by decide
  obtain ⟨host, reached⟩ := Option.isSome_iff_exists.mp entered
  have visible := holders_visible entering host reached (by decide)
  have listing : (run sweeping host).isSome = true :=
    @run_checked host entering (fun host => (run sweeping host).isSome) (by decide) reached
  obtain ⟨after, listed⟩ := Option.isSome_iff_exists.mp listing
  have quiet : undisturbed sweeping host = true := run_checked (by decide) reached
  have attached := of_decide_eq_true (@run_checked host entering (fun host => decide
    (∀ mid ∈ visited sweeping host, mid.Attached ⟨7, "40".toList⟩)) (by decide) reached)
  have returned := of_decide_eq_true (@run_checked host entering (fun host => decide
    ((run sweeping host).map (fun after => after.sweeps 0) =
      some (.returned [⟨7, "40".toList⟩]))) (by decide) reached)
  rw [listed, Option.map_some, Option.some.injEq] at returned
  refine ⟨host, after, reached, listed, visible.1, _, returned, ?_⟩
  exact visible.2 0 [.sweep 0 false, .sweep 0 false, .sweep 0 false] after ⟨7, "40".toList⟩ _
    listed quiet (by simp) attached returned

def reentering : List Act :=
  entering ++ .list 0 :: ([.close 0, .gateToLeave 0, .proceed false, .proceed false,
    .proceed false, .proceed false].map (Act.move ⟨7, "40".toList⟩)) ++ .sweep 0 false ::
  ([.enter, .gateToEnter, .proceed false, .proceed false, .proceed false,
    .proceed false, .proceed false].map (Act.move ⟨7, "40".toList⟩)) ++ [.sweep 0 false]

theorem reentered_invisible :
    ∃ host, run reentering Host.start = some host ∧ ¬ host.HoldersVisible := by
  have entered : (run reentering Host.start).isSome = true := by decide
  obtain ⟨host, reached⟩ := Option.isSome_iff_exists.mp entered
  have attached := of_decide_eq_true (@run_checked host reentering (fun host =>
    decide (host.Attached ⟨7, "40".toList⟩)) (by decide) reached)
  have unwritten := of_decide_eq_true (@run_checked host reentering (fun host =>
    decide (⟨7, "40".toList⟩ ∉ host.registry)) (by decide) reached)
  exact ⟨host, reached, fun visible => unwritten (visible.recorded _ attached)⟩

end Defender.Tenancy.HostLock
