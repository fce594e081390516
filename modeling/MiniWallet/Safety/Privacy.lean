import MiniWallet.Safety.Authorization
import MiniWallet.Safety.Responses

/-!
# What the answers show

A request that looks something up is answered with what belongs to its own user: the records to
which the account of the user is a party, and the balance of that account as it was at some moment.
What other requests do meanwhile makes no difference, nor do the identifiers that the request gives.

* `looked`: a service that looks a record up returns one to which its account is a party.
* `ApiSession.Recounts`: what a request has been told by the wallet is true.
* `answers_private`: the answers show nothing else.
-/

namespace MiniWallet

open Numeric Bookkeeping Process System

variable {sha256 : String → String} {t₀ : Time}

/-! ## Services that look something up -/

/-- The request looks a record up for the account. -/
def Request.Looks (account : UUID) : Request → Prop
  | getTransfer _ a | getDeposit _ a | getWithdrawal _ a => a = account
  | _ => False

/-- The program makes one query and has ended then, and what it returns is a record that the query
has shown, to which the account is a party. -/
def LooksUp (account : UUID) (p : Program Response) : Prop :=
  ∃ q next, p = .call (.select q) next ∧ ∀ r, ∃ out, (next r).outcome? = some out ∧
    ∀ response, out = .ok response →
      ∃ parties, (response, parties) ∈ shown (.select q) r ∧ account ∈ parties

/-- Returning or refusing a record that the query has found. -/
theorem outcome_of_found {α : Type} {e : Exc} {a : α} {f : α → Response} {refused : Prop}
    [Decidable refused] {records : List (Response × List UUID)} {account : UUID}
    {parties : List UUID} (hmem : (f a, parties) ∈ records)
    (hparty : ¬ refused → account ∈ parties) :
    ∃ out, (((if refused then throw e else pure a) : Program α) >>= fun r =>
        (pure (f r) : Program Response)).outcome? = some out ∧
      ∀ response, out = .ok response → ∃ parties, (response, parties) ∈ records ∧
      account ∈ parties := by
  split
  · exact ⟨.error e, rfl, fun _ h => nomatch h⟩
  · next haccepted =>
    refine ⟨.ok (f a), rfl, fun response h => ?_⟩
    obtain rfl := Except.ok.inj h
    exact ⟨parties, hmem, hparty haccepted⟩

/-- Looking a transfer up ends with one of the account. -/
theorem looksUp_getTransfer (id account : UUID) :
    LooksUp account ((Request.getTransfer id account).program sha256) := by
  refine ⟨.transferById id, _, rfl, fun r => ?_⟩
  rcases r with e | _ | t
  · exact ⟨.error e, rfl, fun _ h => nomatch h⟩
  · exact ⟨.error .transferNotFound, rfl, fun _ h => nomatch h⟩
  · refine outcome_of_found (f := .transfer) (List.mem_singleton_self _) fun hparty => ?_
    rw [not_and_or, not_not, not_not] at hparty
    simpa [eq_comm] using hparty

/-- Looking a deposit up ends with one of the account. -/
theorem looksUp_getDeposit (id account : UUID) :
    LooksUp account ((Request.getDeposit id account).program sha256) := by
  refine ⟨.depositById id, _, rfl, fun r => ?_⟩
  rcases r with e | _ | d
  · exact ⟨.error e, rfl, fun _ h => nomatch h⟩
  · exact ⟨.error .depositNotFound, rfl, fun _ h => nomatch h⟩
  · refine outcome_of_found (f := .deposit) (List.mem_singleton_self _) fun hparty => ?_
    rw [not_not.mp hparty]
    exact List.mem_singleton_self _

/-- Looking a withdrawal up ends with one of the account. -/
theorem looksUp_getWithdrawal (id account : UUID) :
    LooksUp account ((Request.getWithdrawal id account).program sha256) := by
  refine ⟨.withdrawalById id, _, rfl, fun r => ?_⟩
  rcases r with e | _ | w
  · exact ⟨.error e, rfl, fun _ h => nomatch h⟩
  · exact ⟨.error .withdrawalNotFound, rfl, fun _ h => nomatch h⟩
  · refine outcome_of_found (f := .withdrawal) (List.mem_singleton_self _) fun hparty => ?_
    rw [not_not.mp hparty]
    exact List.mem_singleton_self _

/-- A request that only looks something up does so for its account. -/
theorem Request.Looks.looksUp {account : UUID} {request : Request} (h : request.Looks account) :
    LooksUp account (request.program sha256) := by
  cases request with
  | getTransfer id a =>
      obtain rfl : a = account := h
      exact looksUp_getTransfer id a
  | getDeposit id a =>
      obtain rfl : a = account := h
      exact looksUp_getDeposit id a
  | getWithdrawal id a =>
      obtain rfl : a = account := h
      exact looksUp_getWithdrawal id a
  | _ => exact h.elim

/-- A record that is shown stays one that may be shown. -/
theorem Response.ShownTo.mono {w w' : Wallet} {response : Response} {account : UUID}
    (hshown : response.ShownTo account w.shared.db) (h : WalletRun sha256 t₀ anyStep w)
    (hrun : (wallet sha256).Run anyStep w w') : response.ShownTo account w'.shared.db := by
  induction hrun with
  | refl => exact hshown
  | step hbefore hl hs ih =>
      obtain ⟨parties, hdescribes, hparty⟩ := ih
      have hw := h.trans hbefore
      exact ⟨parties, hdescribes.mono (grows_of_step hw hs).1
        (deposits_persist hw (.step .refl hl hs)), hparty⟩

variable {origin : ℕ → Option Request} {w : Wallet}

/-- A service that looks a record up has not done anything yet, or it has ended, and then it returns
a record to which its account is a party. -/
theorem looked (h : WalletTale sha256 t₀ anyStep origin w) {i : ℕ} {request : Request}
    {account : UUID}
    {p : Program Response} (horigin : origin i = some request) (hlooks : request.Looks account)
    (hp : w.pool i = some p) :
    (LooksUp account p ∧ (w.sess i).writes = []) ∨ ∃ out, p.outcome? = some out ∧
      ∀ response, out = .ok response → response.ShownTo account w.shared.db := by
  induction h generalizing p with
  | start => cases hp
  | @spawn origin w request' hw _ _ ih =>
      dsimp only [spawned] at hp ⊢
      by_cases hi : i = w.size
      · subst hi
        rw [Function.update_self] at hp horigin
        cases hp
        cases horigin
        refine .inl ⟨hlooks.looksUp, ?_⟩
        rw [(hw.run.fresh (fresh_initial _)).sess_idle w.size le_rfl]
        rfl
      · rw [Function.update_of_ne hi] at hp horigin
        exact ih horigin hp
  | @step origin w w' l hw hl hs hne ih =>
      -- what has been returned may still be shown after the step
      have hkept : ∀ {response : Response}, response.ShownTo account w.shared.db →
          response.ShownTo account w'.shared.db :=
        fun hshown => hshown.mono hw.run (.step .refl hl hs)
      have hother : w.pool i = some p → w'.sess i = w.sess i →
          (LooksUp account p ∧ (w'.sess i).writes = []) ∨ ∃ out, p.outcome? = some out ∧
            ∀ response, out = .ok response → response.ShownTo account w'.shared.db := by
        intro hp hsess
        rw [hsess]
        rcases ih horigin hp with hstart | ⟨out, hout, hshown⟩
        · exact .inl hstart
        · exact .inr ⟨out, hout, fun response h => hkept (hshown response h)⟩
      cases hs with
      | spawn _ => exact absurd rfl hne
      | env _ => exact hother hp rfl
      | @stop j q hj =>
          dsimp only [afterStop] at hp
          by_cases hi : i = j
          · rw [hi, Function.update_self] at hp
            cases hp
          · rw [Function.update_of_ne hi] at hp
            exact hother hp (Function.update_of_ne hi _ _)
      | @call j o next r hj hr =>
          dsimp only [afterCall] at hp
          by_cases hi : i = j
          · subst hi
            rw [Function.update_self] at hp
            cases hp
            rcases ih horigin hj with ⟨⟨q, next', hprog, hnext⟩, hwrites⟩ | ⟨out, hout, -⟩
            · -- the query is answered with what is in the tables
              cases hprog
              obtain ⟨out, hout, hfound⟩ := hnext r
              refine .inr ⟨out, hout, fun response h => ?_⟩
              obtain ⟨parties, hmem, hparty⟩ := hfound response h
              exact hkept ⟨parties, describes_of_shown hr hwrites _ hmem, hparty⟩
            · cases hout
          · rw [Function.update_of_ne hi] at hp
            exact hother hp (Function.update_of_ne hi _ _)

/-! ## What a request is told by the wallet -/

variable {P : Platform} {ok : World ApiState ApiSession → ApiEvent → Prop} {c : Api}

/-- An operation of a handler is at most one step of the wallet. -/
theorem ApiCall.wallet_run {i : ℕ} {o : ApiOp} {r : Except ApiExc o.Out}
    (h : ApiCall P t₀ ok c i o r) :
    (wallet P.sha256).Run anyStep c.shared.wallet
      (ApiState.effect P o r (c.sess i) c.shared).wallet := by
  rcases ApiCall.wallet_cases h with ⟨hwallet, -⟩ | ⟨request, -, hwallet, -⟩
  · rw [hwallet]
    exact .refl
  · rw [hwallet]
    exact .step .refl trivial (.spawn ⟨request, rfl⟩)

/-- What happens without the requests is one step of the wallet, or none. -/
theorem wallet_run_env {s s' : ApiState} (h : ApiState.Env P s s') :
    (wallet P.sha256).Run anyStep s.wallet s'.wallet := by
  cases h with
  | wallet hs _ => exact .step .refl trivial hs
  | sweep cb => exact .step .refl trivial (.spawn ⟨_, rfl⟩)
  | evict _ _ => exact .refl

/-- At some moment of the run that has led to the wallet, the account had the balance. -/
def Wallet.Had (sha256 : String → String) (t₀ : Time) (w : Wallet) (account : UUID) (b : Ticks) :
    Prop :=
  ∃ w₀, WalletRun sha256 t₀ anyStep w₀ ∧ (wallet sha256).Run anyStep w₀ w ∧
    w₀.shared.db.getBalance account = b

/-- What a request has been told by the wallet is true. -/
structure ApiSession.Recounts (P : Platform) (t₀ : Time) (s : ApiState) (σ : ApiSession) :
    Prop where
  /-- The service that was started is the one that was asked for. -/
  service : ∀ service ∈ σ.service, s.origin service.1 = some service.2
  /-- A record that was looked up may be shown. -/
  served : ∀ served ∈ σ.served, ∀ account, served.1.Looks account →
    served.2.ShownTo account s.db
  balances : ∀ b ∈ σ.balances, s.wallet.Had P.sha256 t₀ b.1 b.2

section Recounts

variable {s s' : ApiState} {σ : ApiSession}

/-- What a session recounts stays true. -/
theorem ApiSession.Recounts.mono (h : σ.Recounts P t₀ s)
    (hw : WalletRun P.sha256 t₀ anyStep s.wallet)
    (hgrows : s.Grows s') (hrun : (wallet P.sha256).Run anyStep s.wallet s'.wallet) :
    σ.Recounts P t₀ s' where
  service := by
    intro service hservice
    obtain ⟨started, hstarted, heq⟩ := Option.map_eq_some_iff.mp (h.service service hservice)
    exact Option.map_eq_some_iff.mpr ⟨started, hgrows.services _ _ hstarted, heq⟩
  served := fun served hserved account hlooks =>
    (h.served served hserved account hlooks).mono hw hrun
  balances := by
    intro b hb
    obtain ⟨w₀, hw₀, hlater, hbalance⟩ := h.balances b hb
    exact ⟨w₀, hw₀, hlater.trans hrun, hbalance⟩

/-- A session at its start recounts nothing. -/
theorem ApiSession.recounts_idle (s : ApiState) : ApiSession.Recounts P t₀ s {} where
  service := fun _ h => nomatch h
  served := fun _ h => nomatch h
  balances := fun _ h => nomatch h

/-- What has been told does not depend on the rest of the session. -/
theorem ApiSession.Recounts.congr {σ' : ApiSession} (h : σ.Recounts P t₀ s)
    (hservice : σ'.service = σ.service) (hserved : σ'.served = σ.served)
    (hbalances : σ'.balances = σ.balances) : σ'.Recounts P t₀ s where
  service := by rw [hservice]; exact h.service
  served := by rw [hserved]; exact h.served
  balances := by rw [hbalances]; exact h.balances

end Recounts

/-- A balance that is read outside a transaction is the one of the tables. -/
theorem getBalance_of_read {w : State} {i : ℕ} {o : Op} {r : Except Exc o.Out} (h : Ends w i o r)
    (hwrites : (w.sess i).writes = []) :
    ∀ b ∈ balanceRead o r, w.shared.db.getBalance b.1 = b.2 := by
  cases o with
  | select q =>
      rcases ends_select h with rfl | rfl
      · cases q with
        | balance a =>
            intro b hb
            obtain rfl := List.mem_singleton.mp hb
            simp [Query.eval, State.view, hwrites]
        | _ => rintro b ⟨⟩
      · cases q <;> rintro b ⟨⟩
  | _ => rintro b ⟨⟩

/-- What a request is told is true. -/
theorem ApiCall.recounts {i : ℕ} {o : ApiOp} {r : Except ApiExc o.Out} (h : ApiCall P t₀ ok c i o r)
    (hrecounts : (c.sess i).Recounts P t₀ c.shared) :
    (ApiSession.after o r (c.sess i)).Recounts P t₀
      (ApiState.effect P o r (c.sess i) c.shared) := by
  have htale := tale h.run
  have hkept := hrecounts.mono htale.run (ApiCall.grows h) (ApiCall.wallet_run h)
  have hends : c.shared.Ends P o r := h.enabled
  cases o with
  | wallet o =>
      obtain ⟨x, hx, rfl⟩ := hends
      refine { hkept.congr rfl rfl rfl with balances := fun b hb => ?_ }
      -- a query of its own reads the committed tables
      rcases List.mem_append.mp hb with hb | hb
      · have hidle : (c.shared.wallet.sess c.shared.wallet.size).writes = [] := by
          rw [(htale.run.fresh (fresh_initial _)).sess_idle _ le_rfl]
          rfl
        exact ⟨_, htale.run, ApiCall.wallet_run h, getBalance_of_read hx hidle b hb⟩
      · exact hkept.balances b hb
  | call request =>
      obtain rfl : r = .ok c.shared.wallet.size := hends
      refine { hkept with service := ?_ }
      -- the service was started for this request
      rintro service hservice
      obtain rfl := Option.some.inj hservice
      simp [ApiState.effect, ApiState.origin]
  | join process =>
      obtain ⟨out, hout, rfl⟩ := hends
      obtain ⟨request, hservice⟩ := h.guard
      cases out with
      | error e => exact hkept.congr rfl rfl rfl
      | ok response =>
          refine { hkept with served := ?_ }
          rintro served hserved account hlooks
          simp only [ApiSession.after, hservice, Option.map_some] at hserved
          obtain rfl := Option.some.inj hserved
          obtain ⟨p, hp, hout⟩ := Option.bind_eq_some_iff.mp hout
          have horigin := hrecounts.service _ hservice
          -- the service is not finished yet, or it has looked up what it returned
          rcases looked htale horigin hlooks hp with ⟨⟨q, next, rfl, -⟩, -⟩ | ⟨out', hout', hshown⟩
          · cases hout
          · obtain rfl := Option.some.inj (hout.symm.trans hout')
            exact hshown response rfl
  -- nothing that is recounted changes
  | decode | getUser | userByEmail | accountByUser | hashpw =>
      cases r <;> exact hkept.congr rfl rfl rfl
  | auth o =>
      obtain ⟨x, -, rfl⟩ := hends
      cases o <;> cases x <;> exact hkept.congr rfl rfl rfl
  | receive call =>
      obtain rfl : r = .ok () := hends
      exact hkept.congr rfl rfl rfl
  | _ => exact hkept

/-- In every run what a request has been told is true. -/
theorem recounts (h : ApiRun P t₀ ok c) (i : ℕ) : (c.sess i).Recounts P t₀ c.shared := by
  refine h.each (J := fun s σ => σ.Recounts P t₀ s) (duties_abides P _)
    { init := ?_, own := ?_, other := ?_, env := ?_ } i
  · exact ApiSession.recounts_idle _
  · exact fun hcall hrecounts => ApiCall.recounts hcall (hrecounts _)
  · exact fun hcall hrecounts _ => (hrecounts _).mono (tale hcall.run).run (ApiCall.grows hcall)
      (ApiCall.wallet_run hcall)
  · exact fun hrun hrecounts he => hrecounts.mono (tale hrun).run (grows_env hrun he)
      (wallet_run_env he)

/-! ## The answers -/

/-- The request looks a record up. -/
def HttpCall.Gets : HttpCall → Prop
  | getTransfer _ _ | getDeposit _ _ | getWithdrawal _ _ => True
  | _ => False

/-- The record that an answer shows. -/
def Data.response? : Data → Option Response
  | transfer r => some (.transfer r)
  | deposit r => some (.deposit r)
  | withdrawal r => some (.withdrawal r)
  | _ => none

/-- What an answer shows belongs to the user of its request. A record that is looked up is one to
which the account of the user is a party, and a balance is one that this account has had. -/
structure Exchange.Private (P : Platform) (t₀ : Time) (s : ApiState) (x : Exchange) : Prop where
  record : ∀ {status data response}, x.answer = .data status data → data.response? = some response →
    x.call.Gets → ∃ c account, s.Hears P x.call c ∧ s.directory.owns c.user.id account ∧
      response.ShownTo account s.db
  balance : ∀ {status account balance at_}, x.answer = .data status (.balance account balance at_) →
    ∃ c a b, s.Hears P x.call c ∧ s.directory.owns c.user.id a ∧ s.wallet.Had P.sha256 t₀ a b ∧
      account = a.str ∧ balance = shownBalance b
  summary : ∀ {status account state balance created},
    x.answer = .data status (.summary account state balance created) →
    ∃ c a b, s.Hears P x.call c ∧ s.directory.owns c.user.id a ∧ s.wallet.Had P.sha256 t₀ a b ∧
      account = a.str ∧ balance = shownBalance b
  user : ∀ {status userId email}, x.answer = .data status (.user userId email) →
    ∃ c, s.Hears P x.call c ∧ userId = c.user.id.str ∧ email = c.user.email

section Exchanges

variable {s s' : ApiState} {x : Exchange}

/-- An answer that was private stays private. -/
theorem Exchange.Private.mono (h : x.Private P t₀ s) (hw : WalletRun P.sha256 t₀ anyStep s.wallet)
    (hgrows : s.Grows s') (hrun : (wallet P.sha256).Run anyStep s.wallet s'.wallet) :
    x.Private P t₀ s' where
  record := by
    intro status data response hdata hresponse hgets
    -- the same caller and account, in the larger state
    obtain ⟨c, account, hears, hown, hshown⟩ := h.record hdata hresponse hgets
    exact ⟨c, account, hgrows.hears hears, hgrows.owned _ _ hown, hshown.mono hw hrun⟩
  balance := by
    intro status account balance at_ hdata
    obtain ⟨c, a, b, hears, hown, ⟨w₀, hw₀, hlater, hb⟩, heq⟩ := h.balance hdata
    exact ⟨c, a, b, hgrows.hears hears, hgrows.owned _ _ hown,
      ⟨w₀, hw₀, hlater.trans hrun, hb⟩, heq⟩
  summary := by
    intro status account state balance created hdata
    obtain ⟨c, a, b, hears, hown, ⟨w₀, hw₀, hlater, hb⟩, heq⟩ := h.summary hdata
    exact ⟨c, a, b, hgrows.hears hears, hgrows.owned _ _ hown,
      ⟨w₀, hw₀, hlater.trans hrun, hb⟩, heq⟩
  user := by
    intro status userId email hdata
    obtain ⟨c, hears, heq⟩ := h.user hdata
    exact ⟨c, hgrows.hears hears, heq⟩

/-- An answer that may be sent is private. -/
theorem private_of_mayAnswer {σ : ApiSession} {call : HttpCall} {answer : Answer}
    (hknows : σ.Knows P s) (hrecounts : σ.Recounts P t₀ s) (hreceived : σ.received = some call)
    (hmay : σ.MayAnswer P answer) : Exchange.Private P t₀ s ⟨call, σ.caller, answer⟩ := by
  have hears : ∀ c ∈ σ.caller, s.Hears P call c := by
    intro c hc
    obtain ⟨call', hcall', hears⟩ := hknows.caller c hc
    obtain rfl : call = call' := Option.some.inj (hreceived.symm.trans hcall')
    exact hears
  have hshows : ∀ {status data}, answer = .data status data → σ.Shows P call data := by
    rintro status data rfl
    obtain ⟨call', hcall', hshows⟩ := hmay
    obtain rfl : call = call' := Option.some.inj (hreceived.symm.trans hcall')
    exact hshows
  have hbalances : ∀ {account balance}, σ.Balances account balance →
      ∃ c a b, s.Hears P call c ∧ s.directory.owns c.user.id a ∧ s.wallet.Had P.sha256 t₀ a b ∧
        account = a.str ∧ balance = shownBalance b := by
    rintro account balance ⟨c, hc, a, b, hown, hb, heq⟩
    exact ⟨c, a, b, hears c hc, hknows.directory.owns _ _ hown, hrecounts.balances _ hb, heq⟩
  refine { record := ?_, balance := fun hdata => hbalances (hshows hdata),
           summary := fun hdata => hbalances (hshows hdata), user := fun hdata => ?_ }
  · intro status data response hdata hresponse hgets
    -- the record is the response of a service that has looked it up
    have hserves : σ.Serves P call response := by
      have hshown := hshows hdata
      cases data <;> cases hresponse <;> exact hshown
    obtain ⟨request, hserved, hsubmits⟩ := hserves
    have hlooks : ∃ c ∈ σ.caller, ∃ account, request.Looks account ∧
        σ.directory.owns c.user.id account := by
      cases call <;> first | exact hgets.elim | skip
      all_goals cases request <;> first | exact hsubmits.elim | skip
      all_goals
        obtain ⟨-, c, hc, hown⟩ := hsubmits
        exact ⟨c, hc, _, rfl, hown⟩
    obtain ⟨c, hc, account, hlooks, hown⟩ := hlooks
    exact ⟨c, account, hears c hc, hknows.directory.owns _ _ hown,
      hrecounts.served _ hserved account hlooks⟩
  · obtain ⟨c, hc, heq⟩ := hshows hdata
    exact ⟨c, hears c hc, heq⟩

end Exchanges

/-- However the requests and the services interleave, every request that looks something up is
answered with what belongs to its own user. -/
theorem answers_private (h : ApiRun P t₀ ok c) :
    ∀ x ∈ c.shared.answered, x.Private P t₀ c.shared := by
  refine h.invariant (I := fun w => ∀ x ∈ w.shared.answered, x.Private P t₀ w.shared)
    (duties_abides P _) { init := ?_, spawn := ?_, call := ?_, stop := ?_, env := ?_ }
  · exact fun x hx => nomatch hx
  · exact fun _ hI => hI
  · intro c i o r hcall hI x hx
    have hgrows := ApiCall.grows hcall
    have hrun := ApiCall.wallet_run hcall
    have hw := (tale hcall.run).run
    have hold : x ∈ c.shared.answered →
        x.Private P t₀ (ApiState.effect P o r (c.sess i) c.shared) :=
      fun hx => (hI x hx).mono hw hgrows hrun
    dsimp only [afterCall, api] at hx ⊢
    cases o with
    | respond answer =>
        obtain rfl : r = .ok () := hcall.enabled
        -- the answer that is given in this step, from what the handler has found out
        rcases List.mem_append.mp hx with hx | hx
        · obtain ⟨call, hreceived, rfl⟩ := Option.map_eq_some_iff.mp (Option.mem_toList.mp hx)
          exact (private_of_mayAnswer (knows hcall.run i) (recounts hcall.run i) hreceived
            hcall.guard).mono hw hgrows hrun
        · exact hold hx
    | insertUser | wallet | auth | call => cases r <;> exact hold hx
    | _ => exact hold hx
  · exact fun _ hI _ => hI
  · intro c s' hrun hI he x hx
    -- time passes, or a service takes a step
    have hold : x ∈ c.shared.answered → x.Private P t₀ s' :=
      fun hx => (hI x hx).mono (tale hrun).run (grows_env hrun he) (wallet_run_env he)
    cases he <;> exact hold hx

/-- A user looks everything up after a transfer. -/
theorem answers_private_lookingUp :
    ∃ c : Api, c.shared.answered.length = 9 ∧
      (c.shared.answered.head?.any fun x => x.answer matches .data 200 (.transfer _)) = true ∧
      ∀ x ∈ c.shared.answered, x.Private (demo "development") 0 c.shared := by
  obtain ⟨c, hrun, hlength, hhead⟩ := apiRun_of_played "development" anyStep
    (Q := fun c => c.shared.answered.length = 9 ∧
      (c.shared.answered.head?.any fun x => x.answer matches .data 200 (.transfer _)) = true)
    (show (apiPlayed _ _ (paid ++ lookingUp 8 4 ⟨1001⟩ ⟨13⟩)).any _ = true by decide +kernel)
  exact ⟨c, hlength, hhead, answers_private hrun⟩

end MiniWallet
