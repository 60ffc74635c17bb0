import Defender.Learning.RequestsKept

/-!
# How often a request is served

Every serve is counted before the agent runs: on the claim's record, and on the record that
is put back when the serve is to be retried. Between the create of that record and the
release of the claim two records of one request lie on disk; a tick killed there leaves both,
each with a count of its own. Without such a kill the record a request has carries every run
of the agent for it, and the ceiling holds.
-/

namespace Defender.Learning.Requests

open Defender.Python Defender.Library.OrderedDict

section Counts

variable {settings : Settings}

theorem count_of_written (settings : Settings) {attempts : Int} (counted : 0 ≤ attempts) :
    countOf settings (some (.number (showInt attempts))) = some attempts := by
  have plain : showInt attempts = Nat.toDigits 10 attempts.natAbs := by
    rw [showInt, if_neg (by omega), decimalText]
  have digits : isInteger (Nat.toDigits 10 attempts.natAbs) = true := by
    unfold isInteger
    rw [Bool.and_eq_true, List.all_eq_true]
    constructor
    · simp [Nat.toDigits_ne_nil]
    · exact fun char inside => Nat.isDigit_of_mem_toDigits (by decide) (by decide) inside
  rw [plain]
  simp only [countOf, digits, if_true, digitsNumber]
  rw [Nat.ofDigitChars_toDigits (by decide) (by decide), Int.natAbs_of_nonneg counted]

def Covers (settings : Settings) (invoked : List Nat) (request : Nat)
    (attempts : Option Json) : Prop :=
  ∃ count, countOf settings attempts = some count ∧ (invoked.count request : Int) ≤ count

theorem covers_written {invoked : List Nat} {request : Nat} {attempts : Int}
    (enough : (invoked.count request : Int) ≤ attempts) :
    Covers settings invoked request (some (.number (showInt attempts))) :=
  ⟨attempts, count_of_written settings (by omega), enough⟩

/-- A request whose call gave it no count. -/
def Uncounted (enqueued : List (Str × Spec)) (request : Nat) : Prop :=
  ∃ name spec, enqueued[request]? = some (name, spec) ∧ spec.get? "attempts" = none

def FileCovers (settings : Settings) (invoked : List Nat) (file : File) : Prop :=
  ∃ fields, file.content = .spec fields ∧
    Covers settings invoked file.origin (fields.get? "attempts")

def StageCovers (settings : Settings) (inflight : Dict Str File) (invoked : List Nat) :
    Stage → Prop
  | .judging claim | .requeueing claim _ =>
    Covers settings invoked claim.origin (claim.spec.get? "attempts")
  | .stamping claim attempts =>
    (invoked.count claim.origin : Int) < attempts ∧ attempts ≤ settings.maxRetries
  | .invoking claim attempts =>
    ((invoked.count claim.origin : Int) < attempts ∧ attempts ≤ settings.maxRetries) ∧
      ∃ file fields, inflight.get? claim.name = some file ∧ file.content = .spec fields ∧
        countOf settings (fields.get? "attempts") = some attempts
  | _ => True

end Counts

section Invariant

variable {settings : Settings} {answers : Answers} {world next : World} {tick : Tick}

def Stage.releases : Stage → Option Str
  | .releasing claim _ => some claim.name
  | _ => none

/-- A request lies in the queue and in `inflight/` at once only while its claim is about to
be released. -/
def Single (world : World) : Prop :=
  ∀ name request, originAt world.disk.queue name = some request →
    originAt world.disk.inflight name = some request →
    ∃ tick, world.tick = some tick ∧ tick.stage.releases = some name

/-- Every record that can be served carries a count of the agent's runs for its request, and
the ceiling holds. -/
structure Counted (settings : Settings) (world : World) : Prop where
  bounded : ∀ request, Uncounted world.enqueued request →
    world.invoked.count request ≤ settings.maxRetries.toNat
  known : ∀ request ∈ world.invoked, request < world.enqueued.length
  queue : EachRecord (fun _ file => Uncounted world.enqueued file.origin →
    FileCovers settings world.invoked file) world.disk.queue
  inflight : EachRecord (fun _ file => Uncounted world.enqueued file.origin →
    FileCovers settings world.invoked file) world.disk.inflight
  stage : ∀ tick, world.tick = some tick → ∀ claim ∈ tick.stage.claims,
    Uncounted world.enqueued claim.origin →
      StageCovers settings world.disk.inflight world.invoked tick.stage

theorem retry_covers {inflight : Dict Str File} {invoked : List Nat} {claim : Claimed}
    {attempts : Int} {cause : Str} (enough : (invoked.count claim.origin : Int) ≤ attempts) :
    StageCovers settings inflight invoked (retryOrExhaust settings claim attempts cause) := by
  unfold retryOrExhaust
  split
  · trivial
  · show Covers _ _ _ _
    rw [Dict.get_set_self]
    exact covers_written enough

theorem judge_covers {inflight : Dict Str File} {invoked : List Nat} {claim : Claimed}
    {stage : Stage} (covers : Covers settings invoked claim.origin (claim.spec.get? "attempts"))
    (judged : judge settings answers claim = some stage) :
    StageCovers settings inflight invoked stage := by
  obtain ⟨count, counted, enough⟩ := covers
  unfold judge at judged
  split at judged
  · cases judged
    trivial
  split at judged
  · cases judged
    exact ⟨count, counted, enough⟩
  · cases judged
    exact ⟨count, counted, enough⟩
  split at judged
  · cases judged
    trivial
  · rw [counted, Option.bind_some] at judged
    split at judged
    · cases judged
    · cases judged
      exact retry_covers (by omega)
  · rw [counted, Option.map_some] at judged
    cases judged
    split
    · trivial
    · refine ⟨by omega, by omega⟩

theorem claim_spec_covers {inflight : Dict Str File} {invoked : List Nat} {name : Str}
    {orphan : Bool} {file : File} (covers : FileCovers settings invoked file) :
    StageCovers settings inflight invoked (claimSpec settings name orphan (some file)) := by
  obtain ⟨origin, content⟩ := file
  obtain ⟨fields, rfl, covers⟩ := covers
  unfold claimSpec
  cases fault : addressFault settings fields with
  | some text =>
    simp only [fault]
    trivial
  | none =>
    simp only [fault]
    exact covers

theorem Counted.goes_on (counted : Counted settings world)
    (sameEnqueued : next.enqueued = world.enqueued) (sameInvoked : next.invoked = world.invoked)
    (queue : EachRecord (fun _ file => Uncounted world.enqueued file.origin →
      FileCovers settings world.invoked file) next.disk.queue)
    (inflight : EachRecord (fun _ file => Uncounted world.enqueued file.origin →
      FileCovers settings world.invoked file) next.disk.inflight)
    (stage : ∀ after, next.tick = some after → ∀ claim ∈ after.stage.claims,
      Uncounted world.enqueued claim.origin →
        StageCovers settings next.disk.inflight world.invoked after.stage) :
    Counted settings next := by
  constructor
  · rw [sameEnqueued, sameInvoked]
    exact counted.bounded
  · rw [sameEnqueued, sameInvoked]
    exact counted.known
  · rw [sameEnqueued, sameInvoked]
    exact queue
  · rw [sameEnqueued, sameInvoked]
    exact inflight
  · rw [sameEnqueued, sameInvoked]
    exact stage

theorem origin_name {enqueued : List (Str × Spec)} {first second : Str} {request : Nat}
    {one other : Spec} (here : SpecOf enqueued first request one)
    (there : SpecOf enqueued second request other) : first = second := by
  obtain ⟨spec, call, -⟩ := here
  obtain ⟨again, same, -⟩ := there
  rw [call] at same
  cases same
  rfl

theorem stage_covers_same {enqueued : List (Str × Spec)} {inflight : Dict Str File}
    {invoked : List Nat} {claim same : Claimed} {stage : Stage} (works : stage.WorksOn same)
    (request : SameRequest same claim)
    (covers : Uncounted enqueued claim.origin → StageCovers settings inflight invoked stage) :
    ∀ worked ∈ stage.claims, Uncounted enqueued worked.origin →
      StageCovers settings inflight invoked stage := by
  intro worked inside uncounted
  rw [works.claims] at inside
  rw [List.mem_singleton.mp inside, request.origin] at uncounted
  exact covers uncounted

theorem file_covers_other {invoked : List Nat} {file : File} {request : Nat}
    (other : request ≠ file.origin) (covers : FileCovers settings invoked file) :
    FileCovers settings (request :: invoked) file := by
  obtain ⟨fields, content, count, counted, enough⟩ := covers
  refine ⟨fields, content, count, counted, ?_⟩
  rw [List.count_cons_of_ne other]
  exact enough

/-- The agent's run is covered by the count written before it: the record in `inflight/` is
the only one of its request. -/
theorem invoke_counted {claim : Claimed} {attempts : Int} (sound : Sound world)
    (single : Single world) (counted : Counted settings world) (running : world.tick = some tick)
    (stage : tick.stage = .invoking claim attempts)
    (ok : invoke settings answers world tick claim attempts = some next) :
    Counted settings next := by
  have inHand : claim ∈ tick.stage.claims := by
    rw [stage]
    exact List.mem_cons_self
  have known : claim ∈ tick.claims := List.mem_append_left _ inHand
  have held := (sound.owned tick running).claimed claim known
  have call := sound.faithful.claims tick running claim known
  have covers := counted.stage tick running claim inHand
  rw [stage] at covers
  obtain ⟨disk, same⟩ := invoke_disk ok
  have invoked : next.invoked = claim.origin :: world.invoked := by
    unfold invoke at ok
    cases work : answers.work <;> simp only [work] at ok <;> cases ok <;> rfl
  constructor
  · rw [same, invoked]
    intro request uncounted
    by_cases mine : claim.origin = request
    · subst mine
      obtain ⟨⟨fewer, ceiling⟩, -⟩ := covers uncounted
      rw [List.count_cons_self]
      omega
    · rw [List.count_cons_of_ne mine]
      exact counted.bounded request uncounted
  · rw [same, invoked]
    intro request inside
    rcases List.mem_cons.mp inside with rfl | before
    · obtain ⟨spec, enqueued, -⟩ := call
      exact (List.getElem?_eq_some_iff.mp enqueued).1
    · exact counted.known request before
  · rw [same, invoked, disk]
    intro name file queued uncounted
    by_cases mine : claim.origin = file.origin
    · obtain ⟨fields, -, record⟩ := sound.faithful.disk.queue name file queued
      rw [← mine] at record
      obtain rfl := origin_name call record
      have there : originAt world.disk.queue claim.name = some claim.origin := by
        rw [originAt, queued, mine]
        rfl
      obtain ⟨later, now, releases⟩ := single claim.name claim.origin there held
      cases running.symm.trans now
      rw [stage] at releases
      cases releases
    · exact file_covers_other mine (counted.queue name file queued uncounted)
  · rw [same, invoked, disk]
    intro name file there uncounted
    by_cases mine : claim.origin = file.origin
    · obtain ⟨fields, -, record⟩ := sound.faithful.disk.inflight name file there
      rw [← mine] at record
      obtain rfl := origin_name call record
      obtain ⟨⟨fewer, -⟩, stamped, spec, found, content, count⟩ := covers (mine ▸ uncounted)
      rw [found] at there
      cases there
      refine ⟨spec, content, attempts, count, ?_⟩
      rw [← mine, List.count_cons_self]
      omega
    · exact file_covers_other mine (counted.inflight name file there uncounted)
  · rw [same, invoked, disk]
    have retried : ∀ cause, ∀ worked ∈ (retryOrExhaust settings claim attempts cause).claims,
        Uncounted world.enqueued worked.origin →
          StageCovers settings world.disk.inflight (claim.origin :: world.invoked)
            (retryOrExhaust settings claim attempts cause) := by
      intro cause
      obtain ⟨again, works, request⟩ : ∃ same : Claimed,
          (retryOrExhaust settings claim attempts cause).WorksOn same ∧ SameRequest same claim :=
        retry_works claim attempts cause
      refine stage_covers_same works request ?_
      intro uncounted
      obtain ⟨⟨fewer, -⟩, -⟩ := covers uncounted
      apply retry_covers
      rw [List.count_cons_self]
      omega
    unfold invoke at ok
    cases work : answers.work with
    | systemic =>
      simp only [work] at ok
      cases ok
    | clean =>
      simp only [work] at ok
      cases ok
      rintro after ⟨⟩
      intros
      contradiction
    | failure cause =>
      simp only [work] at ok
      cases ok
      rintro after ⟨⟩
      exact fun _ _ _ => trivial
    | retry cause | refused cause =>
      simp only [work] at ok
      cases ok
      rintro after ⟨⟩
      exact retried cause

theorem advance_counted (sound : Sound world) (single : Single world)
    (counted : Counted settings world) (running : world.tick = some tick)
    (ok : advance settings answers world tick = some next) : Counted settings next := by
  obtain ⟨stage, pending, served⟩ := tick
  have ⟨_, _, queue, inflight, covers⟩ := counted
  cases stage with
  | listing | listed =>
    cases ok
    refine counted.goes_on rfl rfl queue inflight ?_
    rintro after ⟨⟩
    intros
    contradiction
  | taking =>
    cases ok
    obtain ⟨disk, enqueued, invoked⟩ := take_disk world ⟨.taking, pending, served⟩
    refine counted.goes_on enqueued invoked (by rw [disk]; exact queue)
      (by rw [disk]; exact inflight) ?_
    intro after now claim inside
    rw [(take_claims now).1] at inside
    cases inside
  | moving name =>
    simp only [advance] at ok
    split at ok
    case h_1 gone =>
      cases ok
      refine counted.goes_on rfl rfl queue inflight ?_
      rintro after ⟨⟩
      intros
      contradiction
    case h_2 file queued =>
      cases ok
      refine counted.goes_on rfl rfl (queue.erase name)
        (inflight.set (queue name file queued)) ?_
      rintro after ⟨⟩
      intros
      contradiction
  | reading name orphan =>
    cases ok
    refine counted.goes_on rfl rfl queue inflight ?_
    rintro after ⟨⟩
    have there := (sound.owned _ running).present name List.mem_cons_self
    rw [origin_is_some, Dict.contains] at there
    obtain ⟨file, found⟩ := Option.isSome_iff_exists.mp there
    obtain ⟨claim, works, -, origin, -⟩ := claim_spec_works settings name orphan file
    rw [found]
    refine stage_covers_same works (.refl claim) ?_
    intro uncounted
    rw [origin] at uncounted
    exact claim_spec_covers (inflight name file found uncounted)
  | judging claim =>
    obtain ⟨stage, judged, rfl⟩ := Option.map_eq_some_iff.mp ok
    refine counted.goes_on rfl rfl queue inflight ?_
    rintro after ⟨⟩
    obtain ⟨same, works, request⟩ := judge_works judged
    refine stage_covers_same works request ?_
    intro uncounted
    exact judge_covers (covers _ running claim List.mem_cons_self uncounted) judged
  | stamping claim attempts =>
    cases ok
    have ahead := covers _ running claim List.mem_cons_self
    refine counted.goes_on rfl rfl queue (inflight.set ?_) ?_
    · intro uncounted
      refine ⟨_, rfl, ?_⟩
      rw [Dict.get_set_self]
      exact covers_written (ahead uncounted).1.le
    · rintro after ⟨⟩
      refine stage_covers_same ⟨rfl, rfl⟩ (.refl claim) ?_
      intro uncounted
      refine ⟨ahead uncounted, _, _, Dict.get_set_self _ _ _, rfl, ?_⟩
      have fewer := (ahead uncounted).1
      rw [Dict.get_set_self]
      exact count_of_written settings (by omega)
  | invoking claim attempts => exact invoke_counted sound single counted running rfl ok
  | failing claim reason =>
    cases ok
    refine counted.goes_on rfl rfl queue inflight ?_
    rintro after ⟨⟩
    exact fun _ _ _ => trivial
  | parked claim | releasing claim =>
    cases ok
    refine counted.goes_on rfl rfl queue (inflight.erase claim.name) ?_
    rintro after ⟨⟩
    intros
    contradiction
  | requeueing claim more =>
    simp only [advance] at ok
    split at ok
    · cases ok
      refine counted.goes_on rfl rfl queue inflight ?_
      rintro after ⟨⟩
      exact fun _ _ _ => trivial
    · cases ok
      refine counted.goes_on rfl rfl (queue.set ?_) inflight ?_
      · intro uncounted
        exact ⟨claim.spec, rfl, covers _ running claim List.mem_cons_self uncounted⟩
      · rintro after ⟨⟩
        exact fun _ _ _ => trivial
  | drained =>
    simp only [advance] at ok
    split at ok
    · cases ok
      refine counted.goes_on rfl rfl queue inflight ?_
      rintro after ⟨⟩
      exact fun _ _ _ => trivial
    · cases ok
      exact counted.goes_on rfl rfl queue inflight (by intros; contradiction)
  | applying claims =>
    cases claims with
    | nil =>
      cases ok
      exact counted.goes_on rfl rfl queue inflight (by intros; contradiction)
    | cons claim rest =>
      cases ok
      refine counted.goes_on rfl rfl queue (inflight.erase claim.name) ?_
      rintro after ⟨⟩
      exact fun _ _ _ => trivial

theorem Places.Move.doubles {places after : Places} (move : places.Move after) {request : Nat}
    (queued : after.queue = some request) (claimed : after.inflight = some request) :
    (places.queue = some request ∧ places.inflight = some request) ∨ places.queue = none := by
  cases move with
  | requeue => exact .inr rfl
  | claim => cases queued
  | giveUp | drop | apply => cases claimed
  | still | park | elsewhere => exact .inl ⟨queued, claimed⟩

/-- Only a requeue fills the queue's slot, and the release of its claim comes next. -/
theorem advance_queues {name : Str} {request : Nat}
    (free : originAt world.disk.queue name = none)
    (ok : advance settings answers world tick = some next)
    (queued : originAt next.disk.queue name = some request) :
    ∃ after, next.tick = some after ∧ after.stage.releases = some name := by
  have untouched : next.disk.queue ≠ world.disk.queue := by
    intro same
    rw [same, free] at queued
    cases queued
  obtain ⟨stage, pending, served⟩ := tick
  cases stage with
  | listing | listed | reading | stamping | failing | parked | releasing =>
    cases ok
    exact absurd rfl untouched
  | taking =>
    cases ok
    rw [(take_disk world _).1] at untouched
    exact absurd rfl untouched
  | moving moved =>
    simp only [advance] at ok
    split at ok
    · cases ok
      exact absurd rfl untouched
    · cases ok
      simp only [origin_erase, free, ite_self] at queued
      cases queued
  | judging claim =>
    obtain ⟨stage, judged, rfl⟩ := Option.map_eq_some_iff.mp ok
    exact absurd rfl untouched
  | invoking claim attempts =>
    rw [(invoke_disk ok).1] at untouched
    exact absurd rfl untouched
  | requeueing claim more =>
    simp only [advance] at ok
    split at ok
    · cases ok
      exact absurd rfl untouched
    · cases ok
      refine ⟨_, rfl, ?_⟩
      simp only [origin_set, free] at queued
      split at queued
      · rename_i same
        rw [← same]
        rfl
      · cases queued
  | drained =>
    simp only [advance] at ok
    split at ok <;> cases ok <;> exact absurd rfl untouched
  | applying claims =>
    cases claims <;> cases ok <;> exact absurd rfl untouched

theorem advance_single (sound : Sound world) (single : Single world)
    (running : world.tick = some tick) (ok : advance settings answers world tick = some next) :
    Single next := by
  intro name request queued claimed
  have move := advance_moves (sound.owned tick running) (sound.assured tick running) ok name
  rcases move.doubles queued claimed with ⟨before, held⟩ | free
  · -- the record of a claim about to be released goes with this step
    obtain ⟨same, now, releases⟩ := single name request before held
    cases running.symm.trans now
    obtain ⟨stage, pending, served⟩ := tick
    cases stage <;> cases releases
    cases ok
    simp only [origin_erase, if_true] at claimed
    cases claimed
  · exact advance_queues free ok queued

end Invariant

section Runs

variable {settings : Settings} {world : World}

/-- A kill that leaves a request in the queue and in `inflight/`. -/
def leavesTwo (world : World) : Action → Bool
  | .kill =>
    match world.tick with
    | some ⟨.releasing claim _, _, _⟩ =>
      originAt world.disk.queue claim.name == some claim.origin
    | _ => false
  | _ => false

def neverTwo (settings : Settings) : World → List Action → Bool
  | _, [] => true
  | world, action :: rest =>
    !leavesTwo world action && neverTwo settings (act settings world action) rest

structure Served (settings : Settings) (world : World) : Prop where
  sound : Sound world
  single : Single world
  counted : Counted settings world

theorem uncounted_before {enqueued : List (Str × Spec)} {request : Nat} {call : Str × Spec}
    (inside : request < enqueued.length) (uncounted : Uncounted (enqueued ++ [call]) request) :
    Uncounted enqueued request := by
  obtain ⟨name, spec, found, bare⟩ := uncounted
  rw [List.getElem?_append_left inside] at found
  exact ⟨name, spec, found, bare⟩

theorem record_call {enqueued : List (Str × Spec)} {name : Str} {file : File}
    (record : RecordOf enqueued name file) : file.origin < enqueued.length := by
  obtain ⟨_, -, _, call, -⟩ := record
  exact (List.getElem?_eq_some_iff.mp call).1

theorem enqueue_counted (sound : Sound world) (counted : Counted settings world) (caseId : Str)
    (spec : Spec) : Counted settings (enqueueCuration world caseId spec) := by
  have unserved : ∀ request, ¬ request < world.enqueued.length →
      world.invoked.count request = 0 := by
    intro request new
    rw [List.count_eq_zero]
    exact fun inside => new (counted.known request inside)
  constructor
  · intro request uncounted
    by_cases before : request < world.enqueued.length
    · exact counted.bounded request (uncounted_before before uncounted)
    · have none := unserved request before
      simp only [enqueueCuration, none]
      omega
  · intro request inside
    have before := counted.known request inside
    simp only [enqueueCuration, List.length_append, List.length_singleton]
    omega
  · apply EachRecord.set
    · intro name file there uncounted
      have before := record_call (sound.faithful.disk.queue name file there)
      exact counted.queue name file there (uncounted_before before uncounted)
    · rintro ⟨name, again, found, bare⟩
      simp only [enqueueCuration, List.getElem?_concat_length, Option.some.injEq,
        Prod.mk.injEq] at found
      refine ⟨spec, rfl, 0, ?_, ?_⟩
      · rw [found.2, bare]
        rfl
      · have none := unserved _ (lt_irrefl _)
        simp only [enqueueCuration, none]
        exact le_refl _
  · intro name file there uncounted
    have before := record_call (sound.faithful.disk.inflight name file there)
    exact counted.inflight name file there (uncounted_before before uncounted)
  · intro tick running claim inside uncounted
    obtain ⟨_, call, -⟩ := sound.faithful.claims tick running claim (List.mem_append_left _ inside)
    have before := (List.getElem?_eq_some_iff.mp call).1
    exact counted.stage tick running claim inside (uncounted_before before uncounted)

theorem enqueue_single (sound : Sound world) (single : Single world) (caseId : Str)
    (spec : Spec) : Single (enqueueCuration world caseId spec) := by
  intro name request queued claimed
  simp only [enqueueCuration, origin_set] at queued
  split at queued
  · -- the record that was claimed is of an earlier call
    cases queued
    obtain ⟨file, there, origin⟩ := origin_there claimed
    have before := record_call (sound.faithful.disk.inflight name file there)
    omega
  · exact single name request queued claimed

theorem stop_single (single : Single world)
    (apart : ∀ tick claim more, world.tick = some tick → tick.stage = .releasing claim more →
      originAt world.disk.queue claim.name ≠ originAt world.disk.inflight claim.name) :
    Single { world with tick := none } := by
  intro name request queued claimed
  obtain ⟨tick, running, releases⟩ := single name request queued claimed
  cases stage : tick.stage <;> rw [stage] at releases <;> cases releases
  exact absurd (queued.trans claimed.symm) (apart tick _ _ running stage)

theorem act_served (served : Served settings world) (action : Action)
    (once : leavesTwo world action = false) : Served settings (act settings world action) := by
  obtain ⟨sound, single, counted⟩ := served
  cases action with
  | enqueue caseId spec =>
    exact ⟨enqueue_sound sound caseId spec, enqueue_single sound single caseId spec,
      enqueue_counted sound counted caseId spec⟩
  | kill =>
    refine ⟨stop_sound sound, stop_single single ?_,
      counted.goes_on rfl rfl counted.queue counted.inflight (by intros; contradiction)⟩
    rintro ⟨stage, pending, served⟩ claim more running rfl same
    have held := (sound.owned _ running).claimed claim List.mem_cons_self
    simp only [leavesTwo, running, same, held, beq_self_eq_true] at once
    cases once
  | tick answers =>
    simp only [act]
    split
    case h_1 idle =>
      refine ⟨begin_sound sound, ?_, counted.goes_on rfl rfl counted.queue counted.inflight ?_⟩
      · intro name request queued claimed
        obtain ⟨tick, running, -⟩ := single name request queued claimed
        rw [idle] at running
        cases running
      · rintro after ⟨⟩
        intros
        contradiction
    case h_2 tick running =>
      cases advanced : advance settings answers world tick with
      | none =>
        refine ⟨stop_sound sound, stop_single single ?_,
          counted.goes_on rfl rfl counted.queue counted.inflight (by intros; contradiction)⟩
        intro other claim more now stage
        cases running.symm.trans now
        simp only [advance, stage] at advanced
        cases advanced
      | some next =>
        exact ⟨advance_sound running advanced sound, advance_single sound single running advanced,
          advance_counted sound single counted running advanced⟩

theorem run_served (actions : List Action) (served : Served settings world)
    (once : neverTwo settings world actions) : Served settings (run settings world actions) := by
  induction actions generalizing world with
  | nil => exact served
  | cons action rest ih =>
    rw [neverTwo, Bool.and_eq_true, Bool.not_eq_true'] at once
    exact ih (act_served served action once.1) once.2

theorem empty_served (settings : Settings) : Served settings World.empty where
  sound := empty_sound
  single := nofun
  counted := by
    refine ⟨?_, nofun, nofun, nofun, nofun⟩
    rintro request ⟨name, spec, call, -⟩
    cases call

end Runs

namespace Sample

def resumed : List Action :=
  [.enqueue "c" spec] ++ List.replicate 8 (.tick retried) ++ [.kill] ++
    List.replicate 30 (.tick retried)

/-- A tick killed between a requeue and the release of its claim, and the ticks after it. -/
def doubled : List Action :=
  [.enqueue "c" spec] ++ List.replicate 10 (.tick retried) ++ [.kill] ++
    List.replicate 30 (.tick retried)

end Sample

end Defender.Learning.Requests
