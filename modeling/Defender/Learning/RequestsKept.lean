import Defender.Learning.RequestOwnership

/-!
# No request is lost

Under one name a request has three places: the queue's slot, `inflight/` and `failed/`. The
moves of a tick between them are few, and each keeps the newest request of the name in one
of the three, or has it released after a clean run. A tick step is such a move at every
name, whatever was killed before it and whatever is enqueued in between.
-/

namespace Defender.Learning.Requests

open Defender.Python Defender.Library.OrderedDict

/-- The requests that lie under one name, and those released. -/
structure Places where
  queue : Option Nat
  inflight : Option Nat
  failed : Option Nat
  released : List Nat

/-- What a step of a tick may do under one name. -/
inductive Places.Move : Places → Places → Prop where
  | still (places : Places) : Move places places
  | claim (request : Nat) (failed : Option Nat) (released : List Nat) :
      Move ⟨some request, none, failed, released⟩ ⟨none, some request, failed, released⟩
  | park (queue : Option Nat) (request : Nat) (failed : Option Nat) (released : List Nat) :
      Move ⟨queue, some request, failed, released⟩ ⟨queue, some request, some request, released⟩
  | giveUp (queue : Option Nat) (request : Nat) (released : List Nat) :
      Move ⟨queue, some request, some request, released⟩ ⟨queue, none, some request, released⟩
  | requeue (request : Nat) (failed : Option Nat) (released : List Nat) :
      Move ⟨none, some request, failed, released⟩ ⟨some request, some request, failed, released⟩
  | drop (queued request : Nat) (failed : Option Nat) (released : List Nat) :
      Move ⟨some queued, some request, failed, released⟩ ⟨some queued, none, failed, released⟩
  | apply (queue : Option Nat) (request : Nat) (failed : Option Nat) (released : List Nat) :
      Move ⟨queue, some request, failed, released⟩ ⟨queue, none, failed, request :: released⟩
  | elsewhere (places : Places) (request : Nat) :
      Move places { places with released := request :: places.released }

/-- The newest request has the queue's slot to itself, is only passed by an older one that
it waits for, and is somewhere. -/
structure Places.Keeps (places : Places) (newest : Nat) : Prop where
  queued : ∀ request, places.queue = some request → request = newest
  passed : ∀ request, places.inflight = some request →
    request = newest ∨ places.queue.isSome
  somewhere : places.queue.isSome ∨ places.inflight = some newest ∨
    places.failed = some newest ∨ newest ∈ places.released

theorem Places.keeps_enqueued (places : Places) (request : Nat) :
    Places.Keeps { places with queue := some request } request where
  queued := fun _ same => (Option.some.inj same).symm
  passed := fun _ _ => .inr rfl
  somewhere := .inl rfl

theorem Places.Move.keeps {places next : Places} (move : Move places next) {newest : Nat}
    (keeps : places.Keeps newest) : next.Keeps newest := by
  obtain ⟨queued, passed, somewhere⟩ := keeps
  cases move with
  | still => exact ⟨queued, passed, somewhere⟩
  | claim request failed released =>
    obtain rfl := queued request rfl
    exact ⟨nofun, fun _ same => .inl (Option.some.inj same).symm, .inr (.inl rfl)⟩
  | park queue request failed released =>
    refine ⟨queued, passed, ?_⟩
    rcases passed request rfl with rfl | waiting
    · exact .inr (.inl rfl)
    · exact .inl waiting
  | giveUp queue request released =>
    refine ⟨queued, nofun, ?_⟩
    rcases passed request rfl with rfl | waiting
    · exact .inr (.inr (.inl rfl))
    · exact .inl waiting
  | requeue request failed released =>
    rcases passed request rfl with rfl | waiting
    · exact ⟨fun _ same => (Option.some.inj same).symm, fun _ _ => .inr rfl, .inl rfl⟩
    · cases waiting
  | drop request older failed released => exact ⟨queued, nofun, .inl rfl⟩
  | apply queue request failed released =>
    refine ⟨queued, nofun, ?_⟩
    rcases passed request rfl with rfl | waiting
    · exact .inr (.inr (.inr List.mem_cons_self))
    · exact .inl waiting
  | elsewhere request =>
    refine ⟨queued, passed, ?_⟩
    rcases somewhere with inQueue | claimed | failed | released
    · exact .inl inQueue
    · exact .inr (.inl claimed)
    · exact .inr (.inr (.inl failed))
    · exact .inr (.inr (.inr (List.mem_cons_of_mem _ released)))

section Steps

variable {settings : Settings} {answers : Answers} {world next : World} {tick : Tick}

def World.places (world : World) (name : Str) : Places :=
  ⟨originAt world.disk.queue name, originAt world.disk.inflight name,
    originAt world.disk.failed name, world.released⟩

/-- What a stage that lets a record go has made sure of. -/
structure Assured (disk : Disk) (stage : Stage) : Prop where
  parked : ∀ claim, stage = .parked claim → originAt disk.failed claim.name = some claim.origin
  requeued : ∀ claim more, stage = .releasing claim more →
    (originAt disk.queue claim.name).isSome

theorem take_places (world : World) (tick : Tick) (name : Str) :
    (take world tick).places name = world.places name := by
  unfold take
  split
  · rfl
  · rfl
  · split <;> rfl

theorem invoke_places {claim : Claimed} {attempts : Int}
    (ok : invoke settings answers world tick claim attempts = some next) (name : Str) :
    next.places name = world.places name := by
  unfold invoke at ok
  cases work : answers.work <;> simp only [work] at ok <;> cases ok <;> rfl

theorem advance_moves (owned : Owned world.disk.inflight tick)
    (assured : Assured world.disk tick.stage)
    (ok : advance settings answers world tick = some next) (name : Str) :
    (world.places name).Move (next.places name) := by
  obtain ⟨stage, pending, served⟩ := tick
  have claimed : ∀ claim, stage.claims = [claim] →
      originAt world.disk.inflight claim.name = some claim.origin := by
    intro claim works
    apply owned.claimed claim
    simp only [Tick.claims, works, List.mem_append, List.mem_cons, true_or]
  cases stage with
  | listing | listed | reading =>
    cases ok
    exact .still _
  | taking =>
    cases ok
    rw [take_places]
    exact .still _
  | moving moved =>
    simp only [advance] at ok
    split at ok
    case h_1 gone =>
      cases ok
      exact .still _
    case h_2 file queued =>
      cases ok
      simp only [World.places, origin_set, origin_erase]
      split
      · rename_i same
        subst same
        have waiting : originAt world.disk.queue moved = some file.origin := by
          rw [originAt, queued]
          rfl
        rw [waiting, owned.free moved rfl]
        exact .claim _ _ _
      · exact .still _
  | judging claim =>
    obtain ⟨stage, judged, rfl⟩ := Option.map_eq_some_iff.mp ok
    exact .still _
  | stamping claim attempts =>
    cases ok
    simp only [World.places, origin_set]
    split
    · rename_i same
      subst same
      rw [claimed claim rfl]
      exact .still _
    · exact .still _
  | invoking claim attempts =>
    rw [invoke_places ok]
    exact .still _
  | failing claim reason =>
    cases ok
    simp only [World.places, origin_set]
    split
    · rename_i same
      subst same
      rw [claimed claim rfl]
      exact .park _ _ _ _
    · exact .still _
  | parked claim =>
    cases ok
    simp only [World.places, origin_erase]
    split
    · rename_i same
      subst same
      rw [claimed claim rfl, assured.parked claim rfl]
      exact .giveUp _ _ _
    · exact .still _
  | requeueing claim more =>
    simp only [advance] at ok
    split at ok
    case isTrue taken =>
      cases ok
      exact .still _
    case isFalse free =>
      cases ok
      simp only [World.places, origin_set]
      split
      · rename_i same
        subst same
        rw [← origin_is_some] at free
        rw [claimed claim rfl, Option.not_isSome_iff_eq_none.mp free]
        exact .requeue _ _ _
      · exact .still _
  | releasing claim more =>
    cases ok
    simp only [World.places, origin_erase]
    split
    · rename_i same
      subst same
      obtain ⟨queued, taken⟩ := Option.isSome_iff_exists.mp (assured.requeued claim more rfl)
      rw [claimed claim rfl, taken]
      exact .drop _ _ _ _
    · exact .still _
  | drained =>
    simp only [advance] at ok
    split at ok <;> cases ok <;> exact .still _
  | applying claims =>
    cases claims with
    | nil =>
      cases ok
      exact .still _
    | cons claim rest =>
      cases ok
      have here : originAt world.disk.inflight claim.name = some claim.origin :=
        owned.claimed claim List.mem_cons_self
      simp only [World.places, origin_erase]
      split
      · rename_i same
        subst same
        rw [here]
        exact .apply _ _ _ _
      · exact .elsewhere _ _

/-- The stages that take a record out of `inflight/`. -/
def Stage.settles : Stage → Bool
  | .parked _ | .releasing _ _ | .applying _ => true
  | _ => false

theorem Assured.of_open {disk : Disk} {stage : Stage} (undecided : stage.settles = false) :
    Assured disk stage where
  parked := by
    rintro claim rfl
    cases undecided
  requeued := by
    rintro claim more rfl
    cases undecided

theorem retry_open (claim : Claimed) (attempts : Int) (cause : Str) :
    (retryOrExhaust settings claim attempts cause).settles = false := by
  unfold retryOrExhaust
  split <;> rfl

theorem judge_open {claim : Claimed} {stage : Stage}
    (judged : judge settings answers claim = some stage) : stage.settles = false := by
  unfold judge at judged
  split at judged
  · cases judged
    rfl
  split at judged
  · cases judged
    rfl
  · cases judged
    rfl
  split at judged
  · cases judged
    rfl
  · obtain ⟨count, -, judged⟩ := Option.bind_eq_some_iff.mp judged
    split at judged
    · cases judged
    · cases judged
      exact retry_open claim _ _
  · obtain ⟨count, -, rfl⟩ := Option.map_eq_some_iff.mp judged
    split <;> rfl

theorem claim_spec_open (name : Str) (orphan : Bool) (file : Option File) :
    (claimSpec settings name orphan file).settles = false := by
  unfold claimSpec
  split
  · rfl
  · rfl
  · split <;> rfl

theorem take_open {after : Tick} (now : (take world tick).tick = some after) :
    after.stage.settles = false := by
  unfold take at now
  split at now
  · cases now
    rfl
  · cases now
    rfl
  · split at now <;> cases now <;> rfl

theorem invoke_open {claim : Claimed} {attempts : Int} {after : Tick}
    (ok : invoke settings answers world tick claim attempts = some next)
    (now : next.tick = some after) : after.stage.settles = false := by
  unfold invoke at ok
  cases work : answers.work <;> simp only [work] at ok <;> cases ok <;> cases now
  case clean => rfl
  case failure => rfl
  case retry cause => exact retry_open claim attempts cause
  case refused cause => exact retry_open claim attempts cause

theorem advance_assured {after : Tick} (ok : advance settings answers world tick = some next)
    (now : next.tick = some after) : Assured next.disk after.stage := by
  obtain ⟨stage, pending, served⟩ := tick
  cases stage with
  | failing claim reason =>
    cases ok
    cases now
    constructor
    · rintro other ⟨⟩
      rw [origin_set, if_pos rfl]
      rfl
    · intros
      contradiction
  | requeueing claim more =>
    simp only [advance] at ok
    split at ok
    case isTrue taken =>
      cases ok
      cases now
      refine ⟨by intros; contradiction, ?_⟩
      rintro other again ⟨⟩
      rw [origin_is_some]
      exact taken
    case isFalse free =>
      cases ok
      cases now
      refine ⟨by intros; contradiction, ?_⟩
      rintro other again ⟨⟩
      rw [origin_set, if_pos rfl]
      rfl
  | listing | listed | stamping | parked | releasing =>
    cases ok
    cases now
    exact .of_open rfl
  | taking =>
    cases ok
    exact .of_open (take_open now)
  | moving =>
    simp only [advance] at ok
    split at ok <;> cases ok <;> cases now <;> exact .of_open rfl
  | reading =>
    cases ok
    cases now
    exact .of_open (claim_spec_open _ _ _)
  | judging =>
    obtain ⟨stage, judged, rfl⟩ := Option.map_eq_some_iff.mp ok
    cases now
    exact .of_open (judge_open judged)
  | invoking => exact .of_open (invoke_open ok now)
  | drained =>
    simp only [advance] at ok
    split at ok <;> cases ok <;> cases now
    exact ⟨by intros; contradiction, by intros; contradiction⟩
  | applying claims =>
    cases claims with
    | nil =>
      cases ok
      cases now
    | cons claim rest =>
      cases ok
      cases now
      exact ⟨by intros; contradiction, by intros; contradiction⟩

end Steps

section Records

variable {settings : Settings} {answers : Answers} {world next : World} {tick : Tick}

/-- A spec of a call's, all but the count and the reason it failed. -/
def SpecOf (enqueued : List (Str × Spec)) (name : Str) (request : Nat) (fields : Spec) : Prop :=
  ∃ spec, enqueued[request]? = some (name, spec) ∧
    ∀ key : Str, key ≠ "attempts" → key ≠ "failed" → fields.get? key = spec.get? key

def RecordOf (enqueued : List (Str × Spec)) (name : Str) (file : File) : Prop :=
  ∃ fields, file.content = .spec fields ∧ SpecOf enqueued name file.origin fields

def EachRecord (holds : Str → File → Prop) (folder : Dict Str File) : Prop :=
  ∀ name file, folder.get? name = some file → holds name file

def ClaimOf (enqueued : List (Str × Spec)) (claim : Claimed) : Prop :=
  SpecOf enqueued claim.name claim.origin claim.spec

structure DiskOf (enqueued : List (Str × Spec)) (disk : Disk) : Prop where
  queue : EachRecord (RecordOf enqueued) disk.queue
  inflight : EachRecord (RecordOf enqueued) disk.inflight
  failed : EachRecord (RecordOf enqueued) disk.failed

/-- Every record and every claim in hand says what its call enqueued. -/
structure Faithful (world : World) : Prop where
  disk : DiskOf world.enqueued world.disk
  claims : ∀ tick, world.tick = some tick → ∀ claim ∈ tick.claims, ClaimOf world.enqueued claim

variable {enqueued : List (Str × Spec)} {folder : Dict Str File} {name : Str}

theorem SpecOf.grown {request : Nat} {fields : Spec} (same : SpecOf enqueued name request fields)
    (more : List (Str × Spec)) : SpecOf (enqueued ++ more) name request fields := by
  obtain ⟨spec, call, agrees⟩ := same
  refine ⟨spec, ?_, agrees⟩
  rw [List.getElem?_append_left (List.getElem?_eq_some_iff.mp call).1]
  exact call

theorem SpecOf.set {request : Nat} {fields : Spec} (same : SpecOf enqueued name request fields)
    {key : Str} (aside : key = "attempts" ∨ key = "failed") (value : Json) :
    SpecOf enqueued name request (fields.set key value) := by
  obtain ⟨spec, call, agrees⟩ := same
  refine ⟨spec, call, ?_⟩
  intro other uncounted unfailed
  have apart : key ≠ other := by
    rintro rfl
    rcases aside with attempts | failed
    · exact uncounted attempts
    · exact unfailed failed
  rw [Dict.get_set_of_ne _ _ apart]
  exact agrees other uncounted unfailed

theorem ClaimOf.same {same claim : Claimed} (request : SameRequest same claim)
    (known : ClaimOf enqueued claim) : ClaimOf enqueued same := by
  obtain ⟨spec, call, agrees⟩ := known
  refine ⟨spec, ?_, ?_⟩
  · rw [request.origin, request.name]
    exact call
  · intro key uncounted unfailed
    rw [request.fields key uncounted]
    exact agrees key uncounted unfailed

theorem EachRecord.set {holds : Str → File → Prop} (records : EachRecord holds folder)
    {file : File} (record : holds name file) : EachRecord holds (folder.set name file) := by
  intro other found there
  rw [Dict.get_set] at there
  split at there
  · rename_i same
    subst same
    cases there
    exact record
  · exact records other found there

theorem EachRecord.erase {holds : Str → File → Prop} (records : EachRecord holds folder)
    (name : Str) : EachRecord holds (folder.erase name) := by
  intro other found there
  rw [Dict.get_erase] at there
  split at there
  · cases there
  · exact records other found there

theorem record_of_grown {file : File} (record : RecordOf enqueued name file)
    (more : List (Str × Spec)) : RecordOf (enqueued ++ more) name file := by
  obtain ⟨fields, content, same⟩ := record
  exact ⟨fields, content, same.grown more⟩

theorem claims_go_on {claim same : Claimed} {stage : Stage} (works : tick.stage.WorksOn claim)
    (goes : stage.WorksOn same) (request : SameRequest same claim) :
    ∀ known ∈ Tick.claims { tick with stage }, ∃ before ∈ tick.claims,
      SameRequest known before := by
  intro known inside
  rw [Tick.claims, goes.claims] at inside
  rcases List.mem_cons.mp inside with rfl | served
  · refine ⟨claim, ?_, request⟩
    rw [Tick.claims, works.claims]
    exact List.mem_cons_self
  · exact ⟨known, List.mem_append_right _ served, .refl known⟩

theorem take_claims {after : Tick} (now : (take world tick).tick = some after) :
    after.stage.claims = [] ∧ after.served = tick.served := by
  unfold take at now
  split at now
  · cases now
    exact ⟨rfl, rfl⟩
  · cases now
    exact ⟨rfl, rfl⟩
  · split at now <;> cases now <;> exact ⟨rfl, rfl⟩

theorem invoke_claims {claim : Claimed} {attempts : Int} {after : Tick}
    (works : tick.stage.WorksOn claim)
    (ok : invoke settings answers world tick claim attempts = some next)
    (now : next.tick = some after) :
    ∀ known ∈ after.claims, ∃ before ∈ tick.claims, SameRequest known before := by
  unfold invoke at ok
  cases work : answers.work <;> simp only [work] at ok <;> cases ok <;> cases now
  case clean =>
    intro known inside
    refine ⟨known, ?_, .refl known⟩
    rw [Tick.claims, works.claims]
    exact List.perm_append_comm.mem_iff.mp inside
  case failure => exact claims_go_on works ⟨rfl, rfl⟩ (.refl claim)
  case retry cause =>
    obtain ⟨same, goes, request⟩ := retry_works claim attempts cause
    exact claims_go_on works goes request
  case refused cause =>
    obtain ⟨same, goes, request⟩ := retry_works claim attempts cause
    exact claims_go_on works goes request

/-- A claim in hand after a step was in hand before it, or is read off its record. -/
theorem advance_claims {after : Tick} (owned : Owned world.disk.inflight tick)
    (ok : advance settings answers world tick = some next) (now : next.tick = some after) :
    ∀ claim ∈ after.claims, (∃ known ∈ tick.claims, SameRequest claim known) ∨
      ∃ file, world.disk.inflight.get? claim.name = some file ∧ claim.origin = file.origin ∧
        ∀ fields, file.content = .spec fields → claim.spec = fields := by
  obtain ⟨stage, pending, served⟩ := tick
  have kept : ∀ stage claim, claim ∈ served →
      ∃ known ∈ Tick.claims ⟨stage, pending, served⟩, SameRequest claim known :=
    fun stage claim inside => ⟨claim, List.mem_append_right _ inside, .refl claim⟩
  intro claim inside
  cases stage with
  | listing | listed =>
    cases ok
    cases now
    cases inside
  | taking =>
    cases ok
    rw [Tick.claims, (take_claims now).1, (take_claims now).2] at inside
    exact .inl (kept _ claim inside)
  | moving =>
    simp only [advance] at ok
    split at ok <;> cases ok <;> cases now <;> exact .inl (kept _ claim inside)
  | reading name orphan =>
    cases ok
    cases now
    have there := owned.present name List.mem_cons_self
    rw [origin_is_some, Dict.contains] at there
    obtain ⟨file, found⟩ := Option.isSome_iff_exists.mp there
    obtain ⟨read, works, same, origin, fields⟩ := claim_spec_works settings name orphan file
    rw [← found] at works
    rw [Tick.claims, works.claims] at inside
    rcases List.mem_cons.mp inside with rfl | inside
    · exact .inr ⟨file, by rw [same, found], origin, fields⟩
    · exact .inl (kept _ claim inside)
  | judging worked =>
    obtain ⟨stage, judged, rfl⟩ := Option.map_eq_some_iff.mp ok
    cases now
    obtain ⟨same, goes, request⟩ := judge_works judged
    exact .inl (claims_go_on ⟨rfl, rfl⟩ goes request claim inside)
  | stamping worked | failing worked =>
    cases ok
    cases now
    exact .inl (claims_go_on ⟨rfl, rfl⟩ ⟨rfl, rfl⟩ (.refl worked) claim inside)
  | invoking worked => exact .inl (invoke_claims ⟨rfl, rfl⟩ ok now claim inside)
  | parked | releasing =>
    cases ok
    cases now
    exact .inl (kept _ claim inside)
  | requeueing worked =>
    simp only [advance] at ok
    split at ok <;> cases ok <;> cases now <;>
      exact .inl (claims_go_on ⟨rfl, rfl⟩ ⟨rfl, rfl⟩ (.refl worked) claim inside)
  | drained =>
    simp only [advance] at ok
    split at ok <;> cases ok <;> cases now
    exact .inl (kept _ claim (by simpa [Tick.claims, Stage.claims] using inside))
  | applying claims =>
    cases claims with
    | nil =>
      cases ok
      cases now
    | cons first rest =>
      cases ok
      cases now
      exact .inl ⟨claim, List.mem_cons_of_mem _ inside, .refl claim⟩

theorem invoke_disk {claim : Claimed} {attempts : Int}
    (ok : invoke settings answers world tick claim attempts = some next) :
    next.disk = world.disk ∧ next.enqueued = world.enqueued := by
  unfold invoke at ok
  cases work : answers.work <;> simp only [work] at ok <;> cases ok <;> exact ⟨rfl, rfl⟩

theorem take_disk (world : World) (tick : Tick) : (take world tick).disk = world.disk ∧
    (take world tick).enqueued = world.enqueued ∧ (take world tick).invoked = world.invoked := by
  unfold take
  split
  · exact ⟨rfl, rfl, rfl⟩
  · exact ⟨rfl, rfl, rfl⟩
  · split <;> exact ⟨rfl, rfl, rfl⟩

theorem advance_disk_of (records : DiskOf world.enqueued world.disk)
    (claims : ∀ claim ∈ tick.claims, ClaimOf world.enqueued claim)
    (ok : advance settings answers world tick = some next) :
    DiskOf world.enqueued next.disk ∧ next.enqueued = world.enqueued := by
  obtain ⟨stage, pending, served⟩ := tick
  have ⟨queue, inflight, failed⟩ := records
  cases stage with
  | listing | listed | reading =>
    cases ok
    exact ⟨records, rfl⟩
  | taking =>
    cases ok
    rw [(take_disk world _).1, (take_disk world _).2.1]
    exact ⟨records, rfl⟩
  | moving name =>
    simp only [advance] at ok
    split at ok
    case h_1 gone =>
      cases ok
      exact ⟨records, rfl⟩
    case h_2 file queued =>
      cases ok
      exact ⟨⟨queue.erase name, inflight.set (queue name file queued), failed⟩, rfl⟩
  | judging claim =>
    obtain ⟨stage, judged, rfl⟩ := Option.map_eq_some_iff.mp ok
    exact ⟨records, rfl⟩
  | stamping claim attempts =>
    cases ok
    have known := claims claim List.mem_cons_self
    exact ⟨⟨queue, inflight.set ⟨_, rfl, known.set (.inl rfl) _⟩, failed⟩, rfl⟩
  | invoking claim attempts =>
    rw [(invoke_disk ok).1, (invoke_disk ok).2]
    exact ⟨records, rfl⟩
  | failing claim reason =>
    cases ok
    have known := claims claim List.mem_cons_self
    exact ⟨⟨queue, inflight, failed.set ⟨_, rfl, known.set (.inr rfl) _⟩⟩, rfl⟩
  | parked claim | releasing claim =>
    cases ok
    exact ⟨⟨queue, inflight.erase claim.name, failed⟩, rfl⟩
  | requeueing claim more =>
    simp only [advance] at ok
    split at ok
    · cases ok
      exact ⟨records, rfl⟩
    · cases ok
      exact ⟨⟨queue.set ⟨_, rfl, claims claim List.mem_cons_self⟩, inflight, failed⟩, rfl⟩
  | drained =>
    simp only [advance] at ok
    split at ok <;> cases ok <;> exact ⟨records, rfl⟩
  | applying applied =>
    cases applied with
    | nil =>
      cases ok
      exact ⟨records, rfl⟩
    | cons claim rest =>
      cases ok
      exact ⟨⟨queue, inflight.erase claim.name, failed⟩, rfl⟩

theorem advance_faithful (owned : Owned world.disk.inflight tick)
    (running : world.tick = some tick) (ok : advance settings answers world tick = some next)
    (faithful : Faithful world) : Faithful next := by
  obtain ⟨records, inHand⟩ := faithful
  obtain ⟨after, same⟩ := advance_disk_of records (inHand tick running) ok
  constructor
  · rw [same]
    exact after
  · intro later now claim inside
    rw [same]
    rcases advance_claims owned ok now claim inside with ⟨known, before, request⟩ | read
    · exact (inHand tick running known before).same request
    · obtain ⟨file, found, origin, spec⟩ := read
      obtain ⟨fields, content, enqueued⟩ := records.inflight claim.name file found
      rw [ClaimOf, origin, spec fields content]
      exact enqueued

end Records

section Clean

variable {settings : Settings} {answers : Answers} {world next : World} {tick : Tick}

def Stage.applied : Stage → List Claimed
  | .applying claims => claims
  | _ => []

def Tick.cleared (tick : Tick) : List Claimed := tick.stage.applied ++ tick.served

structure ReleasedClean (world : World) : Prop where
  served : ∀ tick, world.tick = some tick → ∀ claim ∈ tick.cleared, claim.origin ∈ world.clean
  released : ∀ request ∈ world.released, request ∈ world.clean

theorem applied_open {stage : Stage} (undecided : stage.settles = false) : stage.applied = [] := by
  cases stage <;> first
    | rfl
    | cases undecided

theorem ReleasedClean.goes_on (clean : ReleasedClean world) (running : world.tick = some tick)
    (sameClean : next.clean = world.clean) (sameReleased : next.released = world.released)
    (undecided : ∀ after, next.tick = some after →
      after.stage.applied = [] ∧ after.served ⊆ tick.served) : ReleasedClean next where
  served := by
    intro after now claim inside
    obtain ⟨unapplied, fewer⟩ := undecided after now
    rw [Tick.cleared, unapplied] at inside
    rw [sameClean]
    exact clean.served tick running claim (List.mem_append_right _ (fewer inside))
  released := by
    rw [sameClean, sameReleased]
    exact clean.released

theorem take_clean (clean : ReleasedClean world) (running : world.tick = some tick) :
    ReleasedClean (take world tick) := by
  apply clean.goes_on running
  · unfold take
    split
    · rfl
    · rfl
    · split <;> rfl
  · exact congrArg Places.released (take_places world tick [])
  · intro after now
    refine ⟨applied_open (take_open now), ?_⟩
    rw [(take_claims now).2]
    exact List.Subset.refl _

theorem invoke_clean {claim : Claimed} {attempts : Int} (clean : ReleasedClean world)
    (running : world.tick = some tick)
    (ok : invoke settings answers world tick claim attempts = some next) : ReleasedClean next := by
  have undecided : ∀ after, next.tick = some after → after.stage.applied = [] :=
    fun _ now => applied_open (invoke_open ok now)
  unfold invoke at ok
  cases work : answers.work <;> simp only [work] at ok <;> cases ok
  case clean =>
    constructor
    · rintro after ⟨⟩ known inside
      have known : known ∈ tick.served ++ [claim] := inside
      rcases List.mem_append.mp known with before | now
      · exact List.mem_cons_of_mem _ (clean.served tick running _
          (List.mem_append_right _ before))
      · rw [List.mem_singleton.mp now]
        exact List.mem_cons_self
    · exact fun request inside => List.mem_cons_of_mem _ (clean.released request inside)
  all_goals
    refine clean.goes_on running rfl rfl ?_
    rintro after ⟨⟩
    exact ⟨undecided _ rfl, List.Subset.refl _⟩

theorem advance_clean (clean : ReleasedClean world) (running : world.tick = some tick)
    (ok : advance settings answers world tick = some next) : ReleasedClean next := by
  obtain ⟨stage, pending, served⟩ := tick
  cases stage with
  | listing | listed =>
    cases ok
    refine clean.goes_on running rfl rfl ?_
    rintro after ⟨⟩
    exact ⟨rfl, List.nil_subset _⟩
  | taking =>
    cases ok
    exact take_clean clean running
  | moving =>
    simp only [advance] at ok
    split at ok <;> cases ok
    all_goals
      refine clean.goes_on running rfl rfl ?_
      rintro after ⟨⟩
      exact ⟨rfl, List.Subset.refl _⟩
  | reading name orphan =>
    cases ok
    refine clean.goes_on running rfl rfl ?_
    rintro after ⟨⟩
    exact ⟨applied_open (claim_spec_open _ _ _), List.Subset.refl _⟩
  | judging =>
    obtain ⟨stage, judged, rfl⟩ := Option.map_eq_some_iff.mp ok
    refine clean.goes_on running rfl rfl ?_
    rintro after ⟨⟩
    exact ⟨applied_open (judge_open judged), List.Subset.refl _⟩
  | invoking => exact invoke_clean clean running ok
  | stamping | failing | parked | releasing =>
    cases ok
    refine clean.goes_on running rfl rfl ?_
    rintro after ⟨⟩
    exact ⟨rfl, List.Subset.refl _⟩
  | requeueing =>
    simp only [advance] at ok
    split at ok <;> cases ok
    all_goals
      refine clean.goes_on running rfl rfl ?_
      rintro after ⟨⟩
      exact ⟨rfl, List.Subset.refl _⟩
  | drained =>
    simp only [advance] at ok
    split at ok
    · cases ok
      refine ⟨?_, clean.released⟩
      rintro after ⟨⟩ claim inside
      exact clean.served _ running claim (by simpa [Tick.cleared, Stage.applied] using inside)
    · cases ok
      exact ⟨by intros; contradiction, clean.released⟩
  | applying claims =>
    cases claims with
    | nil =>
      cases ok
      exact ⟨by intros; contradiction, clean.released⟩
    | cons claim rest =>
      cases ok
      constructor
      · rintro after ⟨⟩ known inside
        exact clean.served _ running known (List.mem_cons_of_mem _ inside)
      · intro request inside
        rcases List.mem_cons.mp inside with rfl | before
        · exact clean.served _ running claim List.mem_cons_self
        · exact clean.released request before

end Clean

section Runs

variable {settings : Settings} {answers : Answers} {world next : World} {tick : Tick}

/-- The last call that enqueued a record under the name. -/
def Newest (enqueued : List (Str × Spec)) (name : Str) (request : Nat) : Prop :=
  (∃ spec, enqueued[request]? = some (name, spec)) ∧
    ∀ later spec, enqueued[later]? = some (name, spec) → later ≤ request

def Lies (world : World) (name : Str) (request : Nat) : Prop :=
  ∃ file, (world.disk.queue.get? name = some file ∨ world.disk.inflight.get? name = some file ∨
    world.disk.failed.get? name = some file) ∧ file.origin = request ∧
      RecordOf world.enqueued name file

structure Sound (world : World) : Prop where
  owned : world.Owned
  assured : ∀ tick, world.tick = some tick → Assured world.disk tick.stage
  faithful : Faithful world
  clean : ReleasedClean world
  kept : ∀ name request, Newest world.enqueued name request →
    (world.places name).Keeps request

theorem newest_append {enqueued : List (Str × Spec)} {name called : Str} {request : Nat}
    {spec : Spec} (newest : Newest (enqueued ++ [(called, spec)]) name request) :
    (called = name ∧ request = enqueued.length) ∨
      (called ≠ name ∧ Newest enqueued name request) := by
  obtain ⟨⟨body, call⟩, last⟩ := newest
  by_cases same : called = name
  · left
    refine ⟨same, ?_⟩
    have latest := last enqueued.length spec (by rw [List.getElem?_concat_length, same])
    have bound := (List.getElem?_eq_some_iff.mp call).1
    rw [List.length_append, List.length_singleton] at bound
    omega
  · right
    have earlier : ∀ (index : Nat) (body : Spec), (enqueued ++ [(called, spec)])[index]? = some (name, body) →
        enqueued[index]? = some (name, body) := by
      intro index body found
      have bound := (List.getElem?_eq_some_iff.mp found).1
      rw [List.length_append, List.length_singleton] at bound
      rcases Nat.lt_succ_iff_lt_or_eq.mp bound with inside | rfl
      · rwa [List.getElem?_append_left inside] at found
      · rw [List.getElem?_concat_length] at found
        cases found
        exact absurd rfl same
    refine ⟨same, ⟨body, earlier request body call⟩, ?_⟩
    intro later body found
    apply last later body
    rw [List.getElem?_append_left (List.getElem?_eq_some_iff.mp found).1]
    exact found

theorem enqueue_sound (sound : Sound world) (caseId : Str) (spec : Spec) :
    Sound (enqueueCuration world caseId spec) := by
  obtain ⟨owned, assured, ⟨records, claims⟩, clean, kept⟩ := sound
  constructor
  · exact owned
  · intro tick running
    obtain ⟨parked, requeued⟩ := assured tick running
    refine ⟨parked, ?_⟩
    intro claim more stage
    simp only [enqueueCuration]
    rw [origin_set]
    split
    · rfl
    · exact requeued claim more stage
  · constructor
    · have grown : ∀ folder, EachRecord (RecordOf world.enqueued) folder →
          EachRecord (RecordOf (world.enqueued ++ [(requestName caseId, spec)])) folder :=
        fun folder before name file there => record_of_grown (before name file there) _
      refine ⟨(grown _ records.queue).set ?_, grown _ records.inflight, grown _ records.failed⟩
      exact ⟨spec, rfl, spec, List.getElem?_concat_length, fun _ _ _ => rfl⟩
    · exact fun tick running claim inside => (claims tick running claim inside).grown _
  · exact ⟨clean.served, clean.released⟩
  · intro name request newest
    rcases newest_append newest with ⟨rfl, rfl⟩ | ⟨other, newest⟩
    · have queued : (enqueueCuration world caseId spec).places (requestName caseId) =
          { world.places (requestName caseId) with queue := some world.enqueued.length } := by
        simp only [World.places, enqueueCuration, origin_set, if_true]
      rw [queued]
      exact Places.keeps_enqueued _ _
    · have same : (enqueueCuration world caseId spec).places name = world.places name := by
        simp only [World.places, enqueueCuration, origin_set, if_neg other]
      rw [same]
      exact kept name request newest

theorem advance_sound (running : world.tick = some tick)
    (ok : advance settings answers world tick = some next) (sound : Sound world) :
    Sound next where
  owned := fun _ now => advance_owned (sound.owned tick running) ok now
  assured := fun _ now => advance_assured ok now
  faithful := advance_faithful (sound.owned tick running) running ok sound.faithful
  clean := advance_clean sound.clean running ok
  kept := by
    intro name request newest
    have same := (advance_disk_of sound.faithful.disk (sound.faithful.claims tick running) ok).2
    rw [same] at newest
    exact (advance_moves (sound.owned tick running) (sound.assured tick running) ok name).keeps
      (sound.kept name request newest)

theorem empty_sound : Sound World.empty where
  owned := nofun
  assured := nofun
  faithful := ⟨⟨nofun, nofun, nofun⟩, nofun⟩
  clean := ⟨nofun, nofun⟩
  kept := by
    rintro name request ⟨⟨spec, call⟩, -⟩
    cases call

theorem stop_sound (sound : Sound world) : Sound { world with tick := none } :=
  ⟨nofun, nofun, ⟨sound.faithful.disk, nofun⟩, ⟨nofun, sound.clean.released⟩, sound.kept⟩

theorem begin_sound (sound : Sound world) : Sound { world with tick := some newTick } := by
  refine ⟨?_, ?_, ⟨sound.faithful.disk, ?_⟩, ⟨?_, sound.clean.released⟩, sound.kept⟩
  · rintro tick ⟨⟩
    exact new_tick_owned _
  · rintro tick ⟨⟩
    exact .of_open rfl
  · rintro tick ⟨⟩
    nofun
  · rintro tick ⟨⟩
    nofun

theorem run_sound (settings : Settings) (actions : List Action) :
    Sound (run settings World.empty actions) := by
  apply run_keeps
  · exact fun world caseId spec sound => enqueue_sound sound caseId spec
  · exact fun world sound => stop_sound sound
  · exact fun world sound => begin_sound sound
  · exact fun world tick answers next running ok sound => advance_sound running ok sound
  · exact empty_sound

theorem origin_there {folder : Dict Str File} {name : Str} {request : Nat}
    (there : originAt folder name = some request) :
    ∃ file, folder.get? name = some file ∧ file.origin = request :=
  Option.map_eq_some_iff.mp there

theorem Sound.lies (sound : Sound world) {name : Str} {request : Nat}
    (newest : Newest world.enqueued name request) :
    Lies world name request ∨ (request ∈ world.released ∧ request ∈ world.clean) := by
  obtain ⟨queued, -, somewhere⟩ := sound.kept name request newest
  obtain ⟨inQueue, inInflight, inFailed⟩ := sound.faithful.disk
  rcases somewhere with waiting | claimed | failed | released
  · obtain ⟨other, waiting⟩ := Option.isSome_iff_exists.mp waiting
    obtain ⟨file, there, origin⟩ := origin_there waiting
    have same : file.origin = request := origin.trans (queued other waiting)
    exact .inl ⟨file, .inl there, same, inQueue name file there⟩
  · obtain ⟨file, there, origin⟩ := origin_there claimed
    exact .inl ⟨file, .inr (.inl there), origin, inInflight name file there⟩
  · obtain ⟨file, there, origin⟩ := origin_there failed
    exact .inl ⟨file, .inr (.inr there), origin, inFailed name file there⟩
  · exact .inr ⟨released, sound.clean.released request released⟩

theorem requeue_creates {claim : Claimed} {more : Bool}
    (stage : tick.stage = .requeueing claim more)
    (ok : advance settings answers world tick = some next) {name : Str} {file : File}
    (queued : world.disk.queue.get? name = some file) :
    next.disk.queue.get? name = some file := by
  simp only [advance, stage] at ok
  split at ok
  case isTrue taken =>
    cases ok
    exact queued
  case isFalse free =>
    cases ok
    have apart : claim.name ≠ name := by
      rintro rfl
      exact free (by rw [Dict.contains, queued]; rfl)
    exact (Dict.get_set_of_ne _ _ apart).trans queued

/-- The newest request of every name lies in the queue, in `inflight/` or in `failed/`, or
is released after a clean run; and no requeue overwrites a queued record. -/
theorem newest_request_kept (settings : Settings) (actions : List Action) :
    (∀ name request, Newest (run settings World.empty actions).enqueued name request →
      Lies (run settings World.empty actions) name request ∨
        (request ∈ (run settings World.empty actions).released ∧
          request ∈ (run settings World.empty actions).clean)) ∧
    ∀ tick claim more answers name file, (run settings World.empty actions).tick = some tick →
      tick.stage = .requeueing claim more →
      (run settings World.empty actions).disk.queue.get? name = some file →
      (act settings (run settings World.empty actions) (.tick answers)).disk.queue.get? name =
        some file := by
  have sound := run_sound settings actions
  generalize run settings World.empty actions = world at sound
  refine ⟨fun name request newest => sound.lies newest, ?_⟩
  intro tick claim more answers name file running stage queued
  simp only [act, running]
  cases advanced : advance settings answers world tick with
  | none => exact queued
  | some next => exact requeue_creates stage advanced queued

end Runs

namespace Sample

def settings : Settings where
  offGrammar := fun _ _ => none
  tenant := some ("acme" : Str)
  maxRetries := 3
  intOf := fun _ => none
  reprOf := fun _ => []

def spec : Spec :=
  Dict.ofList [("tenant_id", .string "acme"), ("run_id", .string "20260101-000000")]

def retried : Answers := ⟨.active, .run, .retry "busy", true⟩

/-- A request whose retry is about to be requeued when the case is investigated again. -/
def passed : List Action :=
  [.enqueue "c" spec] ++ List.replicate 9 (.tick retried) ++ [.enqueue "c" spec]

theorem later_request_kept :
    (Lies (run settings World.empty passed) "c.json" 1 ∨
      (1 ∈ (run settings World.empty passed).released ∧
        1 ∈ (run settings World.empty passed).clean)) ∧
    (act settings (run settings World.empty passed) (.tick retried)).disk.queue.get? "c.json" =
      some ⟨1, .spec spec⟩ := by
  obtain ⟨kept, requeued⟩ := newest_request_kept settings passed
  constructor
  · apply kept
    refine ⟨⟨spec, rfl⟩, ?_⟩
    intro later body found
    have bound : later < 2 := (List.getElem?_eq_some_iff.mp found).1
    omega
  · exact requeued _ _ true retried "c.json" _ rfl rfl rfl

end Sample

end Defender.Learning.Requests
