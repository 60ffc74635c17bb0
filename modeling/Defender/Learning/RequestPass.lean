import Defender.Learning.RequestsKept
import Defender.Library.Inevitable

/-!
# A pass over the records

Whatever the records of the queue and of `inflight/` hold, a pass comes to its end: each
record met is served, requeued, quarantined, or steps back for the other record of its name.
The one read of a record outside every guard is its count, so the counts are taken to be
readable here.
-/

namespace Defender.Learning.Requests

open Defender.Python Defender.Library Defender.Library.OrderedDict

section Pass

def step (settings : Settings) (answers : Answers) (world : World) : Option World :=
  match world.tick with
  | none => some world
  | some tick => advance settings answers world tick

/-- The tenant records can be read, and the work raises nothing its guard does not take. -/
def Calm (answers : Answers) : Prop :=
  (∀ reason, answers.activity ≠ .unreachable reason) ∧ answers.work ≠ .systemic

/-- A claim comes to the count when its address is well formed and no other tenant's; there
the count can be read and printed. -/
def Countable (settings : Settings) (file : File) : Prop :=
  ∀ fields, file.content = .spec fields → addressFault settings fields = none →
    (settings.tenant.isSome → textField fields "tenant_id" = settings.tenant) →
    ∃ count, countOf settings (fields.get? "attempts") = some count ∧ count + 1 < digitBound

/-- The ways a record leaves the pass. A record of `inflight/` is dropped only for a queued
one of its name, and a queued record waits only for a claimed one of its name. -/
def Fair (disk : Disk) (name : Str) (orphan : Bool) (handling : Handling) : Prop :=
  handling = .served ∨ handling = .requeued ∨ handling = .quarantined ∨
    (handling = .superseded ∧ orphan = true ∧ disk.queue.contains name = true) ∨
    (handling = .waiting ∧ orphan = false ∧ disk.inflight.contains name = true)

/-- A record of which a step is about to be taken, and what is as it was before it. -/
structure At (before world : World) (name : Str) (orphan : Bool) (rest : List (Str × Bool))
    (stage : Stage) : Prop where
  tick : ∃ served, world.tick = some ⟨stage, rest, served⟩
  handled : world.handled = before.handled
  queue : ∀ other, other ≠ name → world.disk.queue.get? other = before.disk.queue.get? other
  inflight : ∀ other, other ≠ name →
    world.disk.inflight.get? other = before.disk.inflight.get? other
  slot : world.disk.queue.get? name = if orphan then before.disk.queue.get? name else none

/-- The pass is past a record. -/
structure Past (before world : World) (name : Str) (orphan : Bool) (rest : List (Str × Bool)) :
    Prop where
  tick : ∃ served, world.tick = some ⟨.taking, rest, served⟩
  handled : ∃ handling, world.handled = ⟨name, orphan, handling⟩ :: before.handled ∧
    Fair before.disk name orphan handling
  queue : ∀ other, other ≠ name → world.disk.queue.get? other = before.disk.queue.get? other
  inflight : ∀ other, other ≠ name →
    world.disk.inflight.get? other = before.disk.inflight.get? other
  kept : orphan = true → before.disk.queue.contains name = true →
    world.disk.queue.get? name = before.disk.queue.get? name

variable {settings : Settings} {before world : World} {name : Str} {orphan : Bool}
  {rest : List (Str × Bool)} {claim : Claimed}

/-- The record comes to its end. -/
def Ends (settings : Settings) (before : World) (name : Str) (orphan : Bool)
    (rest : List (Str × Bool)) : World → Prop :=
  Inevitable (step settings) Calm fun world => Past before world name orphan rest

theorem quarantine_ends (reason : Str) (same : claim.name = name) (kind : claim.orphan = orphan)
    (here : At before world name orphan rest (.failing claim reason)) :
    Ends settings before name orphan rest world := by
  obtain ⟨⟨served, tick⟩, handled, queue, inflight, slot⟩ := here
  subst same kind
  apply Inevitable.of_step
  intro answers _
  refine ⟨_, by rw [step, tick]; rfl, ?_⟩
  apply Inevitable.of_step
  intro answers _
  refine ⟨_, rfl, ?_⟩
  apply Inevitable.met
  constructor
  · exact ⟨served, rfl⟩
  · refine ⟨.quarantined, ?_, .inr (.inr (.inl rfl))⟩
    exact congrArg _ handled
  · exact queue
  · intro other apart
    rw [← inflight other apart]
    exact (Dict.get_erase _ _ _).trans (if_neg apart.symm)
  · intro orphan _
    rw [orphan] at slot
    exact slot

theorem requeue_ends (here : At before world name orphan rest (.requeueing claim true))
    (same : claim.name = name) (kind : claim.orphan = orphan) :
    Ends settings before name orphan rest world := by
  obtain ⟨⟨served, tick⟩, handled, queue, inflight, slot⟩ := here
  subst same kind
  have erased : ∀ other, other ≠ claim.name →
      (world.disk.inflight.erase claim.name).get? other = before.disk.inflight.get? other := by
    intro other apart
    rw [← inflight other apart]
    exact (Dict.get_erase _ _ _).trans (if_neg apart.symm)
  apply Inevitable.of_step
  intro answers _
  by_cases taken : world.disk.queue.contains claim.name = true
  · refine ⟨_, by rw [step, tick]; exact if_pos taken, ?_⟩
    apply Inevitable.of_step
    intro answers _
    refine ⟨_, rfl, ?_⟩
    apply Inevitable.met
    refine ⟨⟨served, rfl⟩, ⟨.superseded, congrArg _ handled, ?_⟩, queue, erased, ?_⟩
    · rw [Dict.contains, slot] at taken
      cases orphan : claim.orphan with
      | false =>
        rw [orphan] at taken
        cases taken
      | true =>
        rw [orphan] at taken
        exact .inr (.inr (.inr (.inl ⟨rfl, rfl, taken⟩)))
    · intro orphan _
      rw [orphan] at slot
      exact slot
  · refine ⟨_, by rw [step, tick]; exact if_neg taken, ?_⟩
    apply Inevitable.of_step
    intro answers _
    refine ⟨_, rfl, ?_⟩
    apply Inevitable.met
    refine ⟨⟨served, rfl⟩, ⟨.requeued, congrArg _ handled, .inr (.inl rfl)⟩, ?_, erased, ?_⟩
    · intro other apart
      rw [← queue other apart]
      exact Dict.get_set_of_ne _ _ apart.symm
    · intro orphan there
      rw [Dict.contains, slot, orphan] at taken
      exact absurd there taken

theorem retry_ends (attempts : Int) (cause : Str) (same : claim.name = name)
    (kind : claim.orphan = orphan)
    (here : At before world name orphan rest (retryOrExhaust settings claim attempts cause)) :
    Ends settings before name orphan rest world := by
  unfold retryOrExhaust at here
  split at here
  · exact quarantine_ends _ same kind here
  · exact requeue_ends here same kind

theorem invoke_ends (attempts : Int) (same : claim.name = name) (kind : claim.orphan = orphan)
    (here : At before world name orphan rest (.invoking claim attempts)) :
    Ends settings before name orphan rest world := by
  obtain ⟨⟨served, tick⟩, handled, queue, inflight, slot⟩ := here
  apply Inevitable.of_step
  rintro answers ⟨-, guarded⟩
  rw [step, tick]
  show ∃ after, invoke settings answers world _ claim attempts = some after ∧ _
  unfold invoke
  cases work : answers.work with
  | systemic => exact absurd work guarded
  | clean =>
    refine ⟨_, rfl, Inevitable.met ?_⟩
    subst same kind
    refine ⟨⟨_, rfl⟩, ⟨.served, congrArg _ handled, .inl rfl⟩, queue, inflight, ?_⟩
    intro orphan _
    rw [orphan] at slot
    exact slot
  | failure cause =>
    refine ⟨_, rfl, quarantine_ends (message ["lead-author-error: ", cause]) same kind ?_⟩
    exact ⟨⟨served, rfl⟩, handled, queue, inflight, slot⟩
  | retry cause | refused cause =>
    refine ⟨_, rfl, retry_ends attempts cause same kind ?_⟩
    exact ⟨⟨served, rfl⟩, handled, queue, inflight, slot⟩

theorem stamp_ends (attempts : Int) (same : claim.name = name) (kind : claim.orphan = orphan)
    (here : At before world name orphan rest (.stamping claim attempts)) :
    Ends settings before name orphan rest world := by
  obtain ⟨⟨served, tick⟩, handled, queue, inflight, slot⟩ := here
  apply Inevitable.of_step
  intro answers _
  refine ⟨_, by rw [step, tick]; rfl, ?_⟩
  apply invoke_ends attempts same kind
  refine ⟨⟨served, rfl⟩, handled, queue, ?_, slot⟩
  intro other apart
  rw [← inflight other apart]
  exact Dict.get_set_of_ne _ _ (same ▸ apart.symm)

theorem At.goes_on {stage : Stage} (here : At before world name orphan rest stage)
    {tick : Tick} (running : world.tick = some tick) (next : Stage) :
    At before (world.at tick next) name orphan rest next := by
  obtain ⟨⟨served, same⟩, handled, queue, inflight, slot⟩ := here
  cases running.symm.trans same
  exact ⟨⟨served, rfl⟩, handled, queue, inflight, slot⟩

/-- A stage a claim is sent to, from which it comes to its end. -/
inductive Sent (settings : Settings) (claim : Claimed) : Stage → Prop where
  | failing (reason : Str) : Sent settings claim (.failing claim reason)
  | requeueing : Sent settings claim (.requeueing claim true)
  | retrying (attempts : Int) (cause : Str) :
      Sent settings claim (retryOrExhaust settings claim attempts cause)
  | stamping (attempts : Int) : Sent settings claim (.stamping claim attempts)

theorem Sent.ends {stage : Stage} (sent : Sent settings claim stage)
    (here : At before world name orphan rest stage) (same : claim.name = name)
    (kind : claim.orphan = orphan) : Ends settings before name orphan rest world := by
  cases sent with
  | failing reason => exact quarantine_ends reason same kind here
  | requeueing => exact requeue_ends here same kind
  | retrying attempts cause => exact retry_ends attempts cause same kind here
  | stamping attempts => exact stamp_ends attempts same kind here

theorem judge_sends {answers : Answers} (calm : Calm answers)
    (countable : (settings.tenant.isSome → textField claim.spec "tenant_id" = settings.tenant) →
      ∃ count, countOf settings (claim.spec.get? "attempts") = some count ∧
        count + 1 < digitBound) :
    ∃ stage, judge settings answers claim = some stage ∧ Sent settings claim stage := by
  unfold judge
  split
  case isTrue foreign => exact ⟨_, rfl, .failing _⟩
  case isFalse own =>
    obtain ⟨count, counted, printed⟩ := countable fun selected => by
      by_contra other
      exact own ⟨selected, other⟩
    cases activity : answers.activity with
    | inactive reason => exact ⟨_, rfl, .requeueing⟩
    | unreachable reason => exact absurd activity (calm.1 reason)
    | active =>
      cases rehydrate settings answers claim with
      | absent => exact ⟨_, rfl, .failing _⟩
      | refused cause =>
        refine ⟨retryOrExhaust settings claim (count + 1) cause, ?_, .retrying _ _⟩
        simp only [counted, Option.bind_some]
        exact if_neg (by omega)
      | run =>
        simp only [counted, Option.map_some]
        by_cases past : settings.maxRetries < count + 1
        · rw [if_pos past]
          exact ⟨_, rfl, .failing _⟩
        · rw [if_neg past]
          exact ⟨_, rfl, .stamping _⟩

theorem judge_ends (here : At before world name orphan rest (.judging claim))
    (same : claim.name = name) (kind : claim.orphan = orphan)
    (countable : (settings.tenant.isSome → textField claim.spec "tenant_id" = settings.tenant) →
      ∃ count, countOf settings (claim.spec.get? "attempts") = some count ∧
        count + 1 < digitBound) : Ends settings before name orphan rest world := by
  obtain ⟨served, tick⟩ := here.tick
  apply Inevitable.of_step
  intro answers calm
  obtain ⟨stage, judged, sent⟩ := judge_sends calm countable
  refine ⟨world.at ⟨.judging claim, rest, served⟩ stage, ?_, ?_⟩
  · rw [step, tick]
    show (judge settings answers claim).map _ = _
    rw [judged]
    rfl
  · exact sent.ends (here.goes_on tick stage) same kind

theorem read_ends {file : File} (here : At before world name orphan rest (.reading name orphan))
    (there : world.disk.inflight.get? name = some file) (countable : Countable settings file) :
    Ends settings before name orphan rest world := by
  obtain ⟨served, tick⟩ := here.tick
  apply Inevitable.of_step
  intro answers _
  refine ⟨world.at ⟨.reading name orphan, rest, served⟩
    (claimSpec settings name orphan (some file)), ?_, ?_⟩
  · rw [step, tick, ← there]
    rfl
  · have next := here.goes_on tick (claimSpec settings name orphan (some file))
    obtain ⟨origin, content⟩ := file
    cases content with
    | damaged reason => exact quarantine_ends _ rfl rfl next
    | spec fields =>
      cases fault : addressFault settings fields with
      | some text =>
        simp only [claimSpec, fault] at next ⊢
        exact quarantine_ends _ rfl rfl next
      | none =>
        simp only [claimSpec, fault] at next ⊢
        exact judge_ends next rfl rfl (countable fields rfl fault)

theorem take_orphan_ends {served : List Claimed} {file : File}
    (tick : world.tick = some ⟨.taking, (name, true) :: rest, served⟩)
    (there : world.disk.inflight.get? name = some file) (countable : Countable settings file) :
    Ends settings world name true rest world := by
  apply Inevitable.of_step
  intro answers _
  refine ⟨world.at ⟨.taking, rest, served⟩ (.reading name true), by rw [step, tick]; rfl, ?_⟩
  refine read_ends ⟨⟨served, rfl⟩, rfl, ?_, ?_, rfl⟩ there countable
  · exact fun _ _ => rfl
  · exact fun _ _ => rfl

theorem take_queued_ends {served : List Claimed} {file : File}
    (tick : world.tick = some ⟨.taking, (name, false) :: rest, served⟩)
    (there : world.disk.queue.get? name = some file) (countable : Countable settings file) :
    Ends settings world name false rest world := by
  apply Inevitable.of_step
  intro answers _
  by_cases claimed : world.disk.inflight.contains name = true
  · refine ⟨_, by rw [step, tick]; exact congrArg some (if_pos claimed), Inevitable.met ?_⟩
    refine ⟨⟨served, rfl⟩, ⟨.waiting, rfl, ?_⟩, fun _ _ => rfl, fun _ _ => rfl, nofun⟩
    exact .inr (.inr (.inr (.inr ⟨rfl, rfl, claimed⟩)))
  · refine ⟨_, by rw [step, tick]; exact congrArg some (if_neg claimed), ?_⟩
    apply Inevitable.of_step
    intro answers _
    refine ⟨{ world.at ⟨.moving name, rest, served⟩ (.reading name false) with
      disk := { world.disk with
        queue := world.disk.queue.erase name
        inflight := world.disk.inflight.set name file } }, ?_, ?_⟩
    · simp only [step, World.at, advance, there]
    · refine read_ends ⟨⟨served, rfl⟩, rfl, ?_, ?_, ?_⟩ (Dict.get_set_self _ _ _) countable
      · exact fun other apart => (Dict.get_erase _ _ _).trans (if_neg apart.symm)
      · exact fun other apart => Dict.get_set_of_ne _ _ apart.symm
      · exact (Dict.get_erase _ _ _).trans (if_pos rfl)

end Pass

section Drain

variable {settings : Settings}

/-- Of two records of one name the one in `inflight/` comes first. -/
def InOrder (first second : Str × Bool) : Prop :=
  first.1 = second.1 → first.2 = true ∧ second.2 = false

/-- What a pass has still to meet is as the pass found it. -/
structure Ready (disk : Disk) (pending : List (Str × Bool)) (world : World) : Prop where
  tick : ∃ served, world.tick = some ⟨.taking, pending, served⟩
  orphans : ∀ name, (name, true) ∈ pending →
    world.disk.inflight.get? name = disk.inflight.get? name ∧
      world.disk.queue.get? name = disk.queue.get? name
  queued : ∀ name, (name, false) ∈ pending →
    world.disk.queue.get? name = disk.queue.get? name ∧
      (world.disk.inflight.contains name = true → disk.inflight.contains name = true)

def Drained (disk : Disk) (pending : List (Str × Bool)) (known : List Handled)
    (world : World) : Prop :=
  (∃ served, world.tick = some ⟨.drained, [], served⟩) ∧ known ⊆ world.handled ∧
    ∀ record ∈ pending, ∃ handling, ⟨record.1, record.2, handling⟩ ∈ world.handled ∧
      Fair disk record.1 record.2 handling

def Disk.folder (disk : Disk) (orphan : Bool) : Dict Str File :=
  if orphan then disk.inflight else disk.queue

theorem ready_head_ends {disk : Disk} {name : Str} {orphan : Bool} {rest : List (Str × Bool)}
    {world : World} {file : File} (ready : Ready disk ((name, orphan) :: rest) world)
    (there : (disk.folder orphan).get? name = some file) (countable : Countable settings file) :
    Ends settings world name orphan rest world := by
  obtain ⟨served, tick⟩ := ready.tick
  cases orphan with
  | true =>
    have same := (ready.orphans name List.mem_cons_self).1
    exact take_orphan_ends tick (same.trans there) countable
  | false =>
    have same := (ready.queued name List.mem_cons_self).1
    exact take_queued_ends tick (same.trans there) countable

theorem past_ready {disk : Disk} {name : Str} {orphan : Bool} {rest : List (Str × Bool)}
    {before world : World} (ready : Ready disk ((name, orphan) :: rest) before)
    (order : ∀ other ∈ rest, InOrder (name, orphan) other)
    (there : ∀ record ∈ (name, orphan) :: rest, (disk.folder record.2).contains record.1 = true)
    (past : Past before world name orphan rest) : Ready disk rest world := by
  constructor
  · exact past.tick
  · intro other inside
    have apart : other ≠ name := by
      rintro rfl
      cases (order _ inside rfl).2
    have known := ready.orphans other (List.mem_cons_of_mem _ inside)
    exact ⟨(past.inflight other apart).trans known.1, (past.queue other apart).trans known.2⟩
  · intro other inside
    have known := ready.queued other (List.mem_cons_of_mem _ inside)
    by_cases same : other = name
    · subst same
      have first : orphan = true := (order _ inside rfl).1
      subst first
      have waiting : before.disk.queue.contains other = true := by
        rw [Dict.contains, known.1]
        exact there _ (List.mem_cons_of_mem _ inside)
      refine ⟨(past.kept rfl waiting).trans known.1, ?_⟩
      exact fun _ => there _ List.mem_cons_self
    · refine ⟨(past.queue other same).trans known.1, ?_⟩
      rw [Dict.contains, past.inflight other same]
      exact known.2

theorem past_fair {disk : Disk} {name : Str} {orphan : Bool} {rest : List (Str × Bool)}
    {before : World} (ready : Ready disk ((name, orphan) :: rest) before) {handling : Handling}
    (fair : Fair before.disk name orphan handling) : Fair disk name orphan handling := by
  rcases fair with served | requeued | quarantined | ⟨dropped, rfl, queued⟩ | ⟨waits, rfl, claimed⟩
  · exact .inl served
  · exact .inr (.inl requeued)
  · exact .inr (.inr (.inl quarantined))
  · have same := (ready.orphans name List.mem_cons_self).2
    rw [Dict.contains, same] at queued
    exact .inr (.inr (.inr (.inl ⟨dropped, rfl, queued⟩)))
  · exact .inr (.inr (.inr (.inr ⟨waits, rfl,
      (ready.queued name List.mem_cons_self).2 claimed⟩)))

/-- A pass over what is pending comes to its end. -/
theorem pending_drains {disk : Disk} (pending : List (Str × Bool)) {world : World}
    (ready : Ready disk pending world) (order : pending.Pairwise InOrder)
    (there : ∀ record ∈ pending, ∃ file, (disk.folder record.2).get? record.1 = some file ∧
      Countable settings file) :
    Inevitable (step settings) Calm (Drained disk pending world.handled) world := by
  induction pending generalizing world with
  | nil =>
    obtain ⟨served, tick⟩ := ready.tick
    apply Inevitable.of_step
    intro answers _
    refine ⟨world.at ⟨.taking, [], served⟩ .drained, by rw [step, tick]; rfl, Inevitable.met ?_⟩
    exact ⟨⟨served, rfl⟩, List.Subset.refl _, nofun⟩
  | cons record rest ih =>
    obtain ⟨name, orphan⟩ := record
    obtain ⟨first, later⟩ := List.pairwise_cons.mp order
    obtain ⟨file, found, countable⟩ := there _ List.mem_cons_self
    apply (ready_head_ends ready found countable).onward
    intro after past
    have present : ∀ record ∈ (name, orphan) :: rest,
        (disk.folder record.2).contains record.1 = true := by
      intro record inside
      obtain ⟨file, found, -⟩ := there record inside
      rw [Dict.contains, found]
      rfl
    obtain ⟨handling, handled, fair⟩ := past.handled
    apply (ih (past_ready ready first present past) later fun record inside =>
      there record (List.mem_cons_of_mem _ inside)).weaken
    rintro last ⟨tick, known, rest⟩
    rw [handled] at known
    refine ⟨tick, fun entry inside => known (List.mem_cons_of_mem _ inside), ?_⟩
    intro record inside
    rcases List.mem_cons.mp inside with rfl | inside
    · exact ⟨handling, known List.mem_cons_self, past_fair ready fair⟩
    · exact rest record inside

def passStart (disk : Disk) : World := { World.empty with disk, tick := some newTick }

theorem listed_in_order (disk : Disk) :
    ((jsonNames disk.inflight).map (·, true) ++ (jsonNames disk.queue).map (·, false)).Pairwise
      InOrder := by
  have apart : ∀ folder : Dict Str File, ∀ orphan : Bool,
      ((jsonNames folder).map (·, orphan)).Pairwise InOrder := by
    intro folder orphan
    rw [List.pairwise_map]
    exact (json_names_nodup folder).imp fun {first second} different same =>
      absurd same different
  rw [List.pairwise_append]
  refine ⟨apart _ true, apart _ false, ?_⟩
  intro first inFirst second inSecond _
  obtain ⟨_, -, rfl⟩ := List.mem_map.mp inFirst
  obtain ⟨_, -, rfl⟩ := List.mem_map.mp inSecond
  exact ⟨rfl, rfl⟩

theorem mem_listed (disk : Disk) (name : Str) (orphan : Bool) :
    (name, orphan) ∈ (jsonNames disk.inflight).map (·, true) ++
        (jsonNames disk.queue).map (·, false) ↔ name ∈ jsonNames (disk.folder orphan) := by
  cases orphan <;> simp [Disk.folder]

theorem pass_drains {disk : Disk}
    (countable : ∀ orphan, ∀ name ∈ jsonNames (disk.folder orphan), ∀ file,
      (disk.folder orphan).get? name = some file → Countable settings file) :
    Inevitable (step settings) Calm (Drained disk ((jsonNames disk.inflight).map (·, true) ++
      (jsonNames disk.queue).map (·, false)) []) (passStart disk) := by
  apply Inevitable.of_step
  intro answers _
  refine ⟨_, rfl, ?_⟩
  apply Inevitable.of_step
  intro answers _
  refine ⟨_, rfl, ?_⟩
  have ready : Ready disk ((jsonNames disk.inflight).map (·, true) ++
      (jsonNames disk.queue).map (·, false)) { passStart disk with
        tick := some ⟨.taking, (jsonNames disk.inflight).map (·, true) ++
          (jsonNames disk.queue).map (·, false), []⟩ } :=
    ⟨⟨[], rfl⟩, fun _ _ => ⟨rfl, rfl⟩, fun _ _ => ⟨rfl, id⟩⟩
  refine pending_drains _ ready (listed_in_order disk) ?_
  rintro ⟨name, orphan⟩ inside
  have listed := (mem_listed disk name orphan).mp inside
  have there := ((mem_json_names _ name).mp listed).1
  rw [origin_is_some, Dict.contains] at there
  obtain ⟨file, found⟩ := Option.isSome_iff_exists.mp there
  exact ⟨file, found, countable orphan name listed file found⟩

/-- Whatever the records hold, where their counts can be read a pass ends normally, and every
record of `inflight/` and of the queue is served, requeued or quarantined in it, or steps back
for the other record of its name. -/
theorem pass_handles_every_record (settings : Settings) (disk : Disk) (answers : Nat → Answers)
    (calm : ∀ index, Calm (answers index))
    (countable : ∀ orphan, ∀ name ∈ jsonNames (disk.folder orphan), ∀ file,
      (disk.folder orphan).get? name = some file → Countable settings file) :
    ∃ count world served, Inevitable.runOn (step settings) answers count (passStart disk) =
        some world ∧
      world.tick = some ⟨.drained, [], served⟩ ∧
      ∀ orphan, ∀ name ∈ jsonNames (disk.folder orphan), ∃ handling,
        ⟨name, orphan, handling⟩ ∈ world.handled ∧ Fair disk name orphan handling := by
  obtain ⟨count, world, run, ⟨served, tick⟩, -, handled⟩ :=
    (pass_drains countable).reached answers calm
  refine ⟨count, world, served, run, tick, ?_⟩
  intro orphan name listed
  exact handled (name, orphan) ((mem_listed disk name orphan).mpr listed)

end Drain

namespace Sample

def cleanly : Answers := ⟨.active, .run, .clean, true⟩

/-- A claim left by a tick that died, and a later request of its case. -/
def twoRecords : Disk :=
  ⟨Dict.ofList [("c.json", ⟨1, .spec spec⟩)], Dict.ofList [("c.json", ⟨0, .spec spec⟩)], .empty⟩

theorem spec_countable (origin : Nat) : Countable settings ⟨origin, .spec spec⟩ := by
  rintro fields ⟨⟩ - -
  exact ⟨0, rfl, by decide +kernel⟩

def mixedRecords : Disk :=
  ⟨Dict.ofList [("c.json", ⟨1, .spec spec⟩)],
    Dict.ofList [("a.json", ⟨0, .damaged "Expecting value"⟩)], .empty⟩

theorem mixed_records_handled :
    ∃ count world served, Inevitable.runOn (step settings) (fun _ => retried) count
        (passStart mixedRecords) = some world ∧
      world.tick = some ⟨.drained, [], served⟩ ∧
      ∀ orphan, ∀ name ∈ jsonNames (mixedRecords.folder orphan), ∃ handling,
        ⟨name, orphan, handling⟩ ∈ world.handled ∧ Fair mixedRecords name orphan handling := by
  apply pass_handles_every_record settings mixedRecords fun _ => retried
  · exact fun _ => ⟨nofun, nofun⟩
  · intro orphan name listed file found
    cases orphan with
    | false =>
      have entry : (name, file) ∈ [(("c.json" : Str), File.mk 1 (.spec spec))] :=
        Dict.mem_of_list_entries ((Dict.mem_entries_iff _ _ _).mpr found)
      cases List.mem_singleton.mp entry
      exact spec_countable 1
    | true =>
      have entry : (name, file) ∈
          [(("a.json" : Str), File.mk 0 (.damaged ("Expecting value" : Str)))] :=
        Dict.mem_of_list_entries ((Dict.mem_entries_iff _ _ _).mpr found)
      cases List.mem_singleton.mp entry
      rintro fields ⟨⟩

theorem queued_record_waits :
    addressFault settings spec = none ∧ textField spec "tenant_id" = settings.tenant ∧
      twoRecords.queue.get? "c.json" = some ⟨1, .spec spec⟩ ∧
      Calm cleanly ∧
      ∃ world served, Inevitable.runOn (step settings) (fun _ => cleanly) 9 (passStart twoRecords) =
          some world ∧
        world.tick = some ⟨.drained, [], served⟩ ∧
        ∀ entry ∈ world.handled, entry.name = "c.json" → entry.orphan = false →
          entry.handling ≠ .served ∧ entry.handling ≠ .requeued ∧
            entry.handling ≠ .quarantined := by
  refine ⟨rfl, rfl, rfl, ⟨nofun, nofun⟩, _, _, rfl, rfl, ?_⟩
  decide +kernel

end Sample

end Defender.Learning.Requests
