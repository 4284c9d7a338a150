import Mathlib.Data.List.Nodup
import HeartbeatPool.Proofs.AllOrNothing
import HeartbeatPool.Proofs.Services

/-!
# What a service goes through does not depend on the others

The first run is that of a whole registry.  The second one starts in the same state and has only
the requests of the first that concern one service, at the same times; where a loan of the service
was handed to another one, or to none, it is dropped (`Request.redirect`).  Step by step the service
is in the same state in both (`Sound.matches_record`).
-/

namespace HeartbeatPool

/-- What was seen with nothing else going on is what was seen: the pool is the same, and so is the
reply if the request is. -/
structure Observation.Matches (service : String) (seen alone : Observation) : Prop where
  request : alone.request = seen.request.redirect service
  pool : alone.pool = seen.pool
  reply : alone.request = seen.request → alone.reply = seen.reply

namespace Desk

variable {registry : Registry} {service : String} {id : PoolId} {addresses : List String}
  {desk desk' : Desk} {key : Key} {request : Request} {requests : List Request}

/-- A registry whose pools are held and share no address, before anything was asked for. -/
structure Opens (registry : Registry) (desk : Desk) : Prop where
  reached : ∃ past, (∀ first second, .swap first second ∉ past) ∧
    desk.session.world = (World.run {} past).1
  calls : ∀ key, desk.session.world.calls.get? key = none
  loans : ∀ key, desk.session.world.loans.get? key = none
  ahead : desk.session.script.ahead = []
  held : ∀ id ∈ registry.values, id ∈ desk.session.world.held
  distinct : registry.values.Nodup
  apart : ∀ id ∈ registry.values, ∀ other ∈ registry.values, ∀ pool pool',
    desk.session.world.pools[id]? = some pool → desk.session.world.pools[other]? = some pool' →
      ∀ endpoint ∈ pool.endpoints, ∀ endpoint' ∈ pool'.endpoints,
        endpoint.address = endpoint'.address → id = other

theorem Opens.get?_eq_iff (h : Opens registry desk) (hservice : registry.get? service = some id)
    (other : String) : registry.get? other = some id ↔ other = service := by
  refine ⟨fun hother => ?_, fun heq => heq ▸ hservice⟩
  have hmem := (registry.get?_eq_some_iff service id).mp hservice
  have hmem' := (registry.get?_eq_some_iff other id).mp hother
  exact congrArg Prod.fst (List.inj_on_of_nodup_map h.distinct hmem' hmem rfl)

theorem Opens.orderly (h : Opens registry desk) : desk.session.world.Orderly := by
  obtain ⟨past, -, hworld⟩ := h.reached
  exact hworld ▸ World.Orderly.initial.run past

theorem Opens.exists_pool (h : Opens registry desk) (hid : id ∈ registry.values) :
    ∃ pool, desk.session.world.pools[id]? = some pool :=
  h.orderly.linked.poolOfHeld (h.held id hid)

/-- The pools of a registry are separate. -/
theorem Opens.sound (h : Opens registry desk) (hid : id ∈ registry.values) {pool : Pool}
    (hpool : desk.session.world.pools[id]? = some pool) {ids : List PoolId}
    (hids : ∀ other ∈ ids, other ∈ registry.values) :
    Sound ids id (pool.endpoints.map Endpoint.address) desk where
  ahead := h.ahead
  separate := by
    obtain ⟨past, hswap, hworld⟩ := h.reached
    refine
      { orderly := h.orderly
        sourced := ⟨_, hworld ▸ World.Sourced.initial.run .initial hswap⟩
        held := fun other hother => h.held other (hids other hother)
        called := fun key call hcall => by cases (h.calls key).symm.trans hcall
        lent := fun key loan hloan => by cases (h.loans key).symm.trans hloan
        mem_iff := fun other hother pool' hpool' endpoint hendpoint => ?_ }
    constructor
    · intro hmem
      obtain ⟨own, hown, heq⟩ := List.mem_map.mp hmem
      exact (h.apart id hid other (hids other hother) pool pool' hpool hpool' own hown endpoint
        hendpoint heq).symm
    · rintro rfl
      cases hpool.symm.trans hpool'
      exact List.mem_map_of_mem hendpoint

theorem Sound.after (h : Sound registry.values id addresses desk) (requests : List Request) :
    Sound registry.values id addresses (desk.after registry requests) := by
  induction requests generalizing desk with
  | nil => exact h
  | cons request rest ih => exact ih (h.serve fun _ _ _ _ hget => Table.mem_values hget)

/-- A foreign loan that is handed to a service is refused. -/
theorem Sound.refuses_foreign (h : Sound registry.values id addresses desk)
    (hservice : registry.get? service = some id) {loan : Loan}
    (hloan : desk.session.world.loans.get? key = some loan) (hforeign : loan.pool ≠ id) :
    ∃ pool, desk.session.world.pools[id]? = some pool ∧
      (desk.serve registry (.release key service)).2 =
        some (.failed (.releaseMismatch pool.name)) := by
  obtain ⟨pool, hpool⟩ :=
    h.separate.orderly.linked.poolOfHeld (h.separate.held id (Table.mem_values hservice))
  refine ⟨pool, hpool, ?_⟩
  simp [Desk.serve, Desk.release, hloan, hservice, World.releaseError?, hforeign,
    List.getD_eq_getElem?_getD, hpool]

/-- The service asks for no connections but its own. -/
theorem acquired_of_own {other : String} (hown : desk.concerns service id request = true)
    (heq : request.redirect service = .acquire key other) : other = service := by
  cases request with
  | acquire key' other' =>
      cases heq
      simp only [concerns, Bool.and_eq_true, beq_iff_eq] at hown
      exact hown.1
  | release key' other' =>
      rw [Request.redirect] at heq
      split at heq <;> cases heq
  | pass | poll | cancel | drop => cases heq

/-- In a run the requests that concern a service see what they see with nothing else going on. -/
theorem Sound.matches_record (h : Sound registry.values id addresses desk)
    (halone : Sound [id] id addresses desk') (hsame : Same id addresses desk desk')
    (hservice : ∀ other, registry.get? other = some id ↔ other = service)
    (requests : List Request) :
    List.Forall₂ (Observation.Matches service) (desk.recordOwn registry service id requests)
      (desk'.record registry id (desk.ownRequests registry service id requests)) := by
  induction requests generalizing desk desk' with
  | nil => exact .nil
  | cons request rest ih =>
      have hnext : Sound registry.values id addresses (desk.serve registry request).1 :=
        h.serve fun _ _ _ _ hget => Table.mem_values hget
      unfold ownRequests recordOwn
      dsimp only
      split
      · next hown =>
          obtain ⟨hserved, hreply⟩ := h.same_serve halone hsame hservice hown
          refine .cons ⟨rfl, hserved.world.pool.symm, fun heq => ?_⟩ ?_
          · dsimp only at heq ⊢
            rw [heq]
            exact (hreply heq).symm
          · -- with nothing else going on no other service is ever asked
            refine ih hnext (halone.serve fun key other pool heq hget => ?_) hserved
            have hacquired := acquired_of_own hown heq
            rw [hacquired, (hservice service).mpr rfl, Option.some.injEq] at hget
            exact hget ▸ List.mem_singleton_self id
      · next hother =>
          -- the desk without the others stays where it is
          have hleft := h.same_serve_other (fun other hget => (hservice other).mp hget)
            (Bool.eq_false_iff.mpr hother)
          exact ih hnext halone (hleft.symm.trans hsame)

/-- The services of a registry do not interfere.  Those requests of a run that concern a service
have the replies, and leave the pool of the service as it is, that they have and leave if there are
no others.  The others leave the pool alone, and a foreign loan that is handed to the service is
refused. -/
theorem services_do_not_interfere (h : Opens registry desk)
    (hservice : registry.get? service = some id) (requests : List Request) :
    List.Forall₂ (Observation.Matches service) (desk.recordOwn registry service id requests)
        (desk.record registry id (desk.ownRequests registry service id requests)) ∧
      ∀ request, (desk.after registry requests).concerns service id request = false →
        let before := desk.after registry requests
        let served := before.serve registry request
        served.1.session.world.pools[id]? = before.session.world.pools[id]? ∧
          ∀ key loan, request = .release key service →
            before.session.world.loans.get? key = some loan →
              ∃ pool, before.session.world.pools[id]? = some pool ∧
                served.2 = some (.failed (.releaseMismatch pool.name)) := by
  have hid : id ∈ registry.values := Table.mem_values hservice
  have howner := h.get?_eq_iff hservice
  obtain ⟨pool, hpool⟩ := h.exists_pool hid
  have hsound := h.sound hid hpool fun other hother => hother
  have halone := h.sound hid hpool fun other hother => List.mem_singleton.mp hother ▸ hid
  refine ⟨hsound.matches_record halone (.refl ..) howner requests, fun request hother => ?_⟩
  have hafter := hsound.after requests
  have hsame := hafter.same_serve_other (fun other hget => (howner other).mp hget) hother
  refine ⟨hsame.world.pool.symm, ?_⟩
  rintro key loan rfl hloan
  have hforeign : loan.pool ≠ id := by simpa [concerns, hloan] using hother
  exact hafter.refuses_foreign hservice hloan hforeign

/-- The pools of two services, with a connection each. -/
def twoPools : Desk :=
  { session := (({} : Session).beginBuild Session.twoServices ["mail", "news"] {}).1 }

/-- The registry of the two services. -/
def twoOpen : Registry := .ofList [("mail", 0), ("news", 1)]

theorem address_twoPools (hid : id ∈ twoOpen.values) {pool : Pool}
    (hpool : twoPools.session.world.pools[id]? = some pool) {endpoint : Endpoint}
    (hendpoint : endpoint ∈ pool.endpoints) :
    id = 0 ∧ endpoint.address = "mail:1" ∨ id = 1 ∧ endpoint.address = "news:1" := by
  have hids : id ∈ [0, 1] := hid
  rcases List.mem_cons.mp hids with rfl | hids
  · cases hpool
    cases List.mem_singleton.mp hendpoint
    exact Or.inl ⟨rfl, rfl⟩
  · cases List.mem_singleton.mp hids
    cases hpool
    cases List.mem_singleton.mp hendpoint
    exact Or.inr ⟨rfl, rfl⟩

theorem opens_twoPools : Opens twoOpen twoPools where
  reached := by
    refine ⟨[.create 0 "mail" "mail" [{ address := "mail:1" }] {}, .dialSlot 0,
      .settleSlot 0 0 .success, .finish 0, .create 1 "news" "news" [{ address := "news:1" }] {},
      .dialSlot 1, .settleSlot 1 0 .success, .finish 1], fun first second => ?_, rfl⟩
    simp
  calls _ := rfl
  loans _ := rfl
  ahead := rfl
  held := by decide +kernel
  distinct := by decide +kernel
  apart := by
    intro id hid other hother pool pool' hpool hpool' endpoint hendpoint endpoint' hendpoint' heq
    rcases address_twoPools hid hpool hendpoint with ⟨rfl, hmail⟩ | ⟨rfl, hnews⟩ <;>
      rcases address_twoPools hother hpool' hendpoint' with ⟨rfl, hmail'⟩ | ⟨rfl, hnews'⟩
    · rfl
    · exact absurd (hmail.symm.trans (heq.trans hnews')) (by decide)
    · exact absurd (hnews.symm.trans (heq.trans hmail')) (by decide)
    · rfl

/-- Calls on both services and on one that does not exist, and loans that are handed to the wrong
service. -/
def mixedUp : List Request :=
  [.acquire 0 "mail", .acquire 1 "news", .acquire 2 "chat", .poll 1, .poll 0, .release 1 "mail",
    .release 0 "news", .acquire 3 "mail"]

theorem services_of_mixedUp :
    Opens twoOpen twoPools ∧
      List.Forall₂ (Observation.Matches "mail") (twoPools.recordOwn twoOpen "mail" 0 mixedUp)
        (twoPools.record twoOpen 0 [.acquire 0 "mail", .poll 0, .drop 0, .acquire 3 "mail"]) ∧
      ((twoPools.after twoOpen (mixedUp.take 5)).serve twoOpen (.release 1 "mail")).2 =
        some (.failed (.releaseMismatch "mail")) := by
  have hown : twoPools.ownRequests twoOpen "mail" 0 mixedUp =
      [.acquire 0 "mail", .poll 0, .drop 0, .acquire 3 "mail"] := by decide +kernel
  have hservice : twoOpen.get? "mail" = some 0 := rfl
  have hruns := (services_do_not_interfere opens_twoPools hservice mixedUp).1
  have hothers := (services_do_not_interfere opens_twoPools hservice (mixedUp.take 5)).2
  obtain ⟨-, hrefused⟩ := hothers (.release 1 "mail") rfl
  obtain ⟨pool, hpool, hreply⟩ := hrefused 1 ⟨1, ⟨⟨"news:1", 0⟩, 0⟩⟩ rfl rfl
  cases hpool
  exact ⟨opens_twoPools, hown ▸ hruns, hreply⟩

end Desk

end HeartbeatPool
