import Defender.Learning.CurationRequests

/-!
# What a tick owns

The names a tick holds in `inflight/`: the record it is at, the orphans it has still to take
and the requests it served. No name is held twice, each is there, and a claim in hand is a
claim of the request whose record lies under its name. Only the tick takes a record out of
`inflight/`, so this lasts as long as the tick does.
-/

namespace Defender.Learning.Requests

open Defender.Python Defender.Library.OrderedDict

section Held

/-- The request whose record lies under a name. -/
def originAt (folder : Dict Str File) (name : Str) : Option Nat :=
  (folder.get? name).map File.origin

theorem origin_set (folder : Dict Str File) (name other : Str) (file : File) :
    originAt (folder.set name file) other =
      if name = other then some file.origin else originAt folder other := by
  unfold originAt
  rw [Dict.get_set, apply_ite (Option.map File.origin), Option.map_some]

theorem origin_erase (folder : Dict Str File) (name other : Str) :
    originAt (folder.erase name) other =
      if name = other then none else originAt folder other := by
  unfold originAt
  rw [Dict.get_erase, apply_ite (Option.map File.origin), Option.map_none]

theorem origin_is_some (folder : Dict Str File) (name : Str) :
    (originAt folder name).isSome = folder.contains name := by
  simp [originAt, Dict.contains]

def Stage.names : Stage → List Str
  | .listed orphans => orphans
  | .reading name _ => [name]
  | .judging claim | .stamping claim _ | .invoking claim _ | .failing claim _ | .parked claim
  | .requeueing claim _ | .releasing claim _ => [claim.name]
  | .applying claims => claims.map Claimed.name
  | .listing | .taking | .moving _ | .drained => []

def Stage.claims : Stage → List Claimed
  | .judging claim | .stamping claim _ | .invoking claim _ | .failing claim _ | .parked claim
  | .requeueing claim _ | .releasing claim _ => [claim]
  | .applying claims => claims
  | .listing | .listed _ | .taking | .moving _ | .reading _ _ | .drained => []

def orphansOf (pending : List (Str × Bool)) : List Str :=
  (pending.filter Prod.snd).map Prod.fst

def Tick.held (tick : Tick) : List Str :=
  tick.stage.names ++ (orphansOf tick.pending ++ tick.served.map Claimed.name)

def Tick.claims (tick : Tick) : List Claimed := tick.stage.claims ++ tick.served

structure Owned (inflight : Dict Str File) (tick : Tick) : Prop where
  distinct : tick.held.Nodup
  present : ∀ name ∈ tick.held, (originAt inflight name).isSome
  free : ∀ name, tick.stage = .moving name → originAt inflight name = none
  claimed : ∀ claim ∈ tick.claims, originAt inflight claim.name = some claim.origin

theorem orphans_listed (orphans queued : List Str) :
    orphansOf (orphans.map (·, true) ++ queued.map (·, false)) = orphans := by
  have taken : ((orphans.map fun name => (name, true)).filter Prod.snd) =
      orphans.map fun name => (name, true) := by simp
  have left : ((queued.map fun name => (name, false)).filter Prod.snd) = [] := by simp
  unfold orphansOf
  rw [List.filter_append, taken, left, List.append_nil, List.map_map]
  exact List.map_id orphans

theorem json_names_nodup (folder : Dict Str File) : (jsonNames folder).Nodup := by
  unfold jsonNames
  exact (sorted_perm _).nodup_iff.mpr (folder.nodup.filter _)

theorem mem_json_names (folder : Dict Str File) (name : Str) :
    name ∈ jsonNames folder ↔ (originAt folder name).isSome ∧ endsWith ".json" name := by
  unfold jsonNames
  rw [(sorted_perm _).mem_iff, List.mem_filter, origin_is_some, Dict.contains_iff]

theorem orphans_cons (name : Str) (orphan : Bool) (rest : List (Str × Bool)) :
    orphansOf ((name, orphan) :: rest) =
      if orphan then name :: orphansOf rest else orphansOf rest := by
  cases orphan <;> rfl

theorem claims_held {tick : Tick} {claim : Claimed} (inside : claim ∈ tick.claims) :
    claim.name ∈ tick.held := by
  rcases List.mem_append.mp inside with works | served
  · apply List.mem_append_left
    cases stage : tick.stage <;> rw [stage] at works <;>
      first
        | exact List.mem_map_of_mem works
        | cases works
  · exact List.mem_append_right _ (List.mem_append_right _ (List.mem_map_of_mem served))

theorem Owned.later {inflight after : Dict Str File} {tick next : Tick}
    (owned : Owned inflight tick) (fewer : next.held.Subperm tick.held)
    (same : ∀ name ∈ next.held, originAt after name = originAt inflight name)
    (known : ∀ claim ∈ next.claims, originAt inflight claim.name = some claim.origin)
    (still : ∀ name, next.stage ≠ .moving name) : Owned after next where
  distinct := by
    obtain ⟨part, arranged, within⟩ := fewer
    exact arranged.nodup_iff.mp (owned.distinct.sublist within)
  present := by
    intro name inside
    rw [same name inside]
    exact owned.present name (fewer.subset inside)
  free := fun name moving => absurd moving (still name)
  claimed := by
    intro claim inside
    rw [same claim.name (claims_held inside), known claim inside]

end Held

section Steps

variable {settings : Settings} {answers : Answers} {world next : World} {tick after : Tick}

/-- A stage that works on one claim, its record in `inflight/`. -/
structure Stage.WorksOn (stage : Stage) (claim : Claimed) : Prop where
  claims : stage.claims = [claim]
  names : stage.names = [claim.name]

theorem Stage.WorksOn.not_moving {stage : Stage} {claim : Claimed} (works : stage.WorksOn claim)
    (name : Str) : stage ≠ .moving name := by
  rintro rfl
  cases works.claims

/-- The same request, its attempts counted or not. -/
structure SameRequest (same claim : Claimed) : Prop where
  name : same.name = claim.name
  origin : same.origin = claim.origin
  fields : ∀ key : Str, key ≠ "attempts" → same.spec.get? key = claim.spec.get? key

theorem SameRequest.refl (claim : Claimed) : SameRequest claim claim :=
  ⟨rfl, rfl, fun _ _ => rfl⟩

theorem retry_works (claim : Claimed) (attempts : Int) (cause : Str) :
    ∃ same : Claimed, (retryOrExhaust settings claim attempts cause).WorksOn same ∧
      SameRequest same claim := by
  unfold retryOrExhaust
  split
  · exact ⟨claim, ⟨rfl, rfl⟩, .refl claim⟩
  · exact ⟨_, ⟨rfl, rfl⟩, rfl, rfl, fun key other => Dict.get_set_of_ne _ _ other.symm⟩

theorem judge_works {claim : Claimed} {stage : Stage}
    (judged : judge settings answers claim = some stage) :
    ∃ same : Claimed, stage.WorksOn same ∧ SameRequest same claim := by
  unfold judge at judged
  split at judged
  · cases judged
    exact ⟨claim, ⟨rfl, rfl⟩, .refl claim⟩
  split at judged
  · cases judged
    exact ⟨claim, ⟨rfl, rfl⟩, .refl claim⟩
  · cases judged
    exact ⟨claim, ⟨rfl, rfl⟩, .refl claim⟩
  split at judged
  · cases judged
    exact ⟨claim, ⟨rfl, rfl⟩, .refl claim⟩
  · obtain ⟨count, -, judged⟩ := Option.bind_eq_some_iff.mp judged
    split at judged
    · cases judged
    · cases judged
      exact retry_works claim _ _
  · obtain ⟨count, -, rfl⟩ := Option.map_eq_some_iff.mp judged
    split
    · exact ⟨claim, ⟨rfl, rfl⟩, .refl claim⟩
    · exact ⟨claim, ⟨rfl, rfl⟩, .refl claim⟩

theorem claim_spec_works (settings : Settings) (name : Str) (orphan : Bool) (file : File) :
    ∃ claim : Claimed, (claimSpec settings name orphan (some file)).WorksOn claim ∧
      claim.name = name ∧ claim.origin = file.origin ∧
      ∀ fields, file.content = .spec fields → claim.spec = fields := by
  obtain ⟨origin, content⟩ := file
  cases content with
  | damaged reason => exact ⟨_, ⟨rfl, rfl⟩, rfl, rfl, nofun⟩
  | spec fields =>
    refine ⟨⟨name, fields, origin, orphan⟩, ?_, rfl, rfl, fun _ same => Content.spec.inj same⟩
    unfold claimSpec
    cases fault : addressFault settings fields with
    | some text =>
      simp only [fault]
      exact ⟨rfl, rfl⟩
    | none =>
      simp only [fault]
      exact ⟨rfl, rfl⟩

theorem Owned.goes_on {inflight after : Dict Str File} {tick : Tick} {claim same : Claimed}
    {stage : Stage} (owned : Owned inflight tick) (works : tick.stage.WorksOn claim)
    (goes : stage.WorksOn same) (request : SameRequest same claim)
    (unchanged : ∀ name, originAt after name = originAt inflight name) :
    Owned after { tick with stage } := by
  have names : Tick.held { tick with stage } = tick.held := by
    simp only [Tick.held, goes.names, works.names, request.name]
  apply owned.later
  · rw [names]
  · intro other _
    exact unchanged other
  · intro known inside
    rw [Tick.claims, goes.claims, List.singleton_append, List.mem_cons] at inside
    rcases inside with rfl | inside
    · rw [request.name, request.origin]
      apply owned.claimed claim
      simp only [Tick.claims, works.claims, List.mem_append, List.mem_cons, true_or]
    · exact owned.claimed known (List.mem_append_right _ inside)
  · exact goes.not_moving

/-- The record the stage works on leaves `inflight/`. -/
theorem Owned.lets_go {inflight : Dict Str File} {tick : Tick} {claim : Claimed}
    (owned : Owned inflight tick) (works : tick.stage.WorksOn claim) (pending : List (Str × Bool))
    (fewer : (orphansOf pending).Sublist (orphansOf tick.pending)) :
    Owned (inflight.erase claim.name) { tick with stage := .taking, pending } := by
  have others : claim.name ∉ orphansOf tick.pending ++ tick.served.map Claimed.name := by
    have distinct := owned.distinct
    rw [Tick.held, works.names, List.singleton_append, List.nodup_cons] at distinct
    exact distinct.1
  have within : (orphansOf pending ++ tick.served.map Claimed.name).Sublist
      (orphansOf tick.pending ++ tick.served.map Claimed.name) := fewer.append_right _
  apply owned.later
  · exact (within.trans (List.sublist_append_right _ _)).subperm
  · intro name inside
    have apart : claim.name ≠ name := by
      rintro rfl
      exact others (within.subset inside)
    rw [origin_erase, if_neg apart]
  · exact fun known inside => owned.claimed known (List.mem_append_right _ inside)
  · nofun

theorem Owned.waits {inflight : Dict Str File} {tick : Tick} (owned : Owned inflight tick)
    (taking : tick.stage = .taking) (stage : Stage) (pending : List (Str × Bool))
    (same : stage.names ++ orphansOf pending = orphansOf tick.pending)
    (unclaimed : stage.claims = [])
    (free : ∀ name, stage = .moving name → originAt inflight name = none) :
    Owned inflight { tick with stage, pending } := by
  have held : Tick.held { tick with stage, pending } = tick.held := by
    simp only [Tick.held, taking, Stage.names, List.nil_append, ← same, List.append_assoc]
  have claims : Tick.claims { tick with stage, pending } = tick.claims := by
    rw [Tick.claims, Tick.claims, taking, unclaimed]
    rfl
  constructor
  · rw [held]
    exact owned.distinct
  · rw [held]
    exact owned.present
  · exact free
  · rw [claims]
    exact owned.claimed

theorem take_owned (owned : Owned world.disk.inflight tick) (taking : tick.stage = .taking)
    (now : (take world tick).tick = some after) :
    Owned (take world tick).disk.inflight after := by
  unfold take at now ⊢
  split at now
  case h_1 empty =>
    cases now
    apply owned.waits taking
    · simp [Stage.names, empty]
    · rfl
    · intro name moving
      cases moving
  case h_2 name rest orphan =>
    cases now
    apply owned.waits taking
    · simp [Stage.names, orphan, orphans_cons]
    · rfl
    · intro name moving
      cases moving
  case h_3 name rest queued =>
    split at now
    case isTrue claimed =>
      cases now
      simp only [claimed, if_true]
      apply owned.waits taking
      · simp [Stage.names, queued, orphans_cons]
      · rfl
      · intro name moving
        cases moving
    case isFalse free =>
      cases now
      simp only [free]
      apply owned.waits taking
      · simp [Stage.names, queued, orphans_cons]
      · rfl
      · intro other moving
        cases moving
        rw [← origin_is_some] at free
        exact Option.not_isSome_iff_eq_none.mp free

theorem invoke_owned {claim : Claimed} {attempts : Int} (owned : Owned world.disk.inflight tick)
    (works : tick.stage.WorksOn claim)
    (ok : invoke settings answers world tick claim attempts = some next)
    (now : next.tick = some after) : Owned next.disk.inflight after := by
  have untouched : ∀ name, originAt world.disk.inflight name = originAt world.disk.inflight name :=
    fun _ => rfl
  have retried : ∀ cause, Owned world.disk.inflight
      { tick with stage := retryOrExhaust settings claim attempts cause } := by
    intro cause
    obtain ⟨same, goes, request⟩ := retry_works claim attempts cause
    exact owned.goes_on works goes request untouched
  unfold invoke at ok
  cases work : answers.work with
  | systemic =>
    simp only [work] at ok
    cases ok
  | failure cause =>
    simp only [work] at ok
    cases ok
    cases now
    exact owned.goes_on works ⟨rfl, rfl⟩ (.refl claim) untouched
  | retry cause =>
    simp only [work] at ok
    cases ok
    cases now
    exact retried cause
  | refused cause =>
    simp only [work] at ok
    cases ok
    cases now
    exact retried cause
  | clean =>
    simp only [work] at ok
    cases ok
    cases now
    -- the claim joins those served, its record where it was
    have moved : (Tick.held { tick with stage := .taking, served := tick.served ++ [claim] }).Perm
        tick.held := by
      rw [Tick.held, Tick.held, works.names]
      show (orphansOf tick.pending ++ (tick.served ++ [claim]).map Claimed.name).Perm _
      rw [List.map_append, ← List.append_assoc]
      exact List.perm_append_comm
    apply owned.later moved.subperm
    · exact fun name _ => untouched name
    · intro known inside
      have amongClaims : known ∈ tick.claims := by
        rw [Tick.claims, works.claims]
        exact List.perm_append_comm.mem_iff.mp inside
      exact owned.claimed known amongClaims
    · nofun

theorem advance_owned (owned : Owned world.disk.inflight tick)
    (ok : advance settings answers world tick = some next) (now : next.tick = some after) :
    Owned next.disk.inflight after := by
  obtain ⟨stage, pending, served⟩ := tick
  have untouched : ∀ name, originAt world.disk.inflight name = originAt world.disk.inflight name :=
    fun _ => rfl
  cases stage with
  | listing =>
    cases ok
    cases now
    have held : Tick.held ⟨.listed (jsonNames world.disk.inflight), [], []⟩ =
        jsonNames world.disk.inflight := List.append_nil _
    constructor
    · rw [held]
      exact json_names_nodup _
    · rw [held]
      exact fun name inside => ((mem_json_names _ name).mp inside).1
    · intro name moving
      cases moving
    · intro claim inside
      cases inside
  | listed orphans =>
    cases ok
    cases now
    apply owned.later
    · simp only [Tick.held, Stage.names, orphans_listed, List.nil_append, List.map_nil,
        List.append_nil]
      exact (List.sublist_append_left _ _).subperm
    · exact fun name _ => untouched name
    · intro claim inside
      cases inside
    · intro name moving
      cases moving
  | taking =>
    cases ok
    exact take_owned owned rfl now
  | moving name =>
    have unheld : name ∉ Tick.held ⟨.moving name, pending, served⟩ := by
      intro inside
      have there := owned.present name inside
      rw [owned.free name rfl] at there
      cases there
    simp only [advance] at ok
    split at ok
    case h_1 gone =>
      cases ok
      cases now
      exact owned.later (List.Subperm.refl _) (fun other _ => untouched other) owned.claimed (by intro _ same; cases same)
    case h_2 file queued =>
      cases ok
      cases now
      have apart : ∀ other ∈ Tick.held ⟨.moving name, pending, served⟩, name ≠ other := by
        rintro other inside rfl
        exact unheld inside
      constructor
      · exact List.nodup_cons.mpr ⟨unheld, owned.distinct⟩
      · intro other inside
        rw [origin_set]
        rcases List.mem_cons.mp inside with rfl | inside
        · rw [if_pos rfl]
          rfl
        · rw [if_neg (apart other inside)]
          exact owned.present other inside
      · intros
        contradiction
      · intro claim inside
        have servedBefore : claim ∈ Tick.claims ⟨.moving name, pending, served⟩ := inside
        rw [origin_set, if_neg (apart claim.name (claims_held servedBefore))]
        exact owned.claimed claim servedBefore
  | reading name orphan =>
    cases ok
    cases now
    have there := owned.present name List.mem_cons_self
    rw [origin_is_some, Dict.contains] at there
    obtain ⟨file, found⟩ := Option.isSome_iff_exists.mp there
    obtain ⟨claim, works, same, origin, -⟩ := claim_spec_works settings name orphan file
    rw [← found] at works
    apply owned.later
    · rw [Tick.held, works.names, same]
      exact List.Subperm.refl _
    · exact fun other _ => untouched other
    · intro known inside
      rw [Tick.claims, works.claims] at inside
      rcases List.mem_cons.mp inside with rfl | inside
      · rw [originAt, same, found, origin]
        rfl
      · exact owned.claimed known inside
    · exact works.not_moving
  | judging claim =>
    obtain ⟨stage, judged, rfl⟩ := Option.map_eq_some_iff.mp ok
    cases now
    obtain ⟨same, goes, request⟩ := judge_works judged
    exact owned.goes_on ⟨rfl, rfl⟩ goes request untouched
  | stamping claim attempts =>
    cases ok
    cases now
    refine owned.goes_on ⟨rfl, rfl⟩ ⟨rfl, rfl⟩ (.refl claim) ?_
    intro name
    rw [origin_set]
    split
    · rename_i same
      rw [← same, owned.claimed claim List.mem_cons_self]
    · rfl
  | invoking claim attempts => exact invoke_owned owned ⟨rfl, rfl⟩ ok now
  | failing claim reason =>
    cases ok
    cases now
    exact owned.goes_on ⟨rfl, rfl⟩ ⟨rfl, rfl⟩ (.refl claim) untouched
  | parked claim =>
    cases ok
    cases now
    exact owned.lets_go ⟨rfl, rfl⟩ pending (List.Sublist.refl _)
  | requeueing claim more =>
    simp only [advance] at ok
    split at ok
    · cases ok
      cases now
      exact owned.goes_on ⟨rfl, rfl⟩ ⟨rfl, rfl⟩ (.refl claim) untouched
    · cases ok
      cases now
      exact owned.goes_on ⟨rfl, rfl⟩ ⟨rfl, rfl⟩ (.refl claim) untouched
  | releasing claim more =>
    cases ok
    cases now
    refine owned.lets_go ⟨rfl, rfl⟩ (if more then pending else []) ?_
    cases more
    · exact List.nil_sublist _
    · exact List.Sublist.refl _
  | drained =>
    simp only [advance] at ok
    split at ok
    · cases ok
      cases now
      refine owned.later ?_ (fun other _ => untouched other) ?_ (by intro _ same; cases same)
      · simp only [Tick.held, Stage.names, List.map_nil, List.append_nil, List.nil_append]
        exact List.perm_append_comm.subperm
      · intro claim inside
        exact owned.claimed claim (by simpa [Tick.claims, Stage.claims] using inside)
    · cases ok
      cases now
  | applying claims =>
    cases claims with
    | nil =>
      cases ok
      cases now
    | cons claim rest =>
      cases ok
      cases now
      have distinct := List.nodup_cons.mp owned.distinct
      refine owned.later (List.sublist_cons_self _ _).subperm ?_ ?_ (by intro _ same; cases same)
      · intro name inside
        have apart : claim.name ≠ name := by
          rintro rfl
          exact distinct.1 inside
        rw [origin_erase, if_neg apart]
      · exact fun known inside => owned.claimed known (List.mem_cons_of_mem _ inside)

end Steps

section Runs

variable {settings : Settings}

theorem run_keeps {Good : World → Prop}
    (enqueues : ∀ world caseId spec, Good world → Good (enqueueCuration world caseId spec))
    (stops : ∀ world, Good world → Good { world with tick := none })
    (begins : ∀ world, Good world → Good { world with tick := some newTick })
    (steps : ∀ world tick answers next, world.tick = some tick →
      advance settings answers world tick = some next → Good world → Good next)
    (actions : List Action) {world : World} (good : Good world) :
    Good (run settings world actions) := by
  induction actions generalizing world with
  | nil => exact good
  | cons action rest ih =>
    apply ih
    cases action with
    | enqueue caseId spec => exact enqueues world caseId spec good
    | kill => exact stops world good
    | tick answers =>
      simp only [act]
      split
      case h_1 idle => exact begins world good
      case h_2 tick running =>
        cases advanced : advance settings answers world tick with
        | none => exact stops world good
        | some next => exact steps world tick answers next running advanced good

def World.Owned (world : World) : Prop :=
  ∀ tick, world.tick = some tick → Requests.Owned world.disk.inflight tick

theorem new_tick_owned (inflight : Dict Str File) : Requests.Owned inflight newTick where
  distinct := List.nodup_nil
  present := nofun
  free := nofun
  claimed := nofun

end Runs

end Defender.Learning.Requests
