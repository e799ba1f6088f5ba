import Aeropass.Api.Server
import Aeropass.System.Failures

/-!
# What the handlers answer

The handlers make calls of the backend (`api_hosts`), so what is known of the calls is known under
the API. A handler knows the account of its request and that the call it makes is that account's
(`Route.Serves`), so what it responds is an answer of its route to that account (`Answer`).
-/

namespace Aeropass

open CredentialTables CredencialAcceso Runs Threads

variable {cfg : BackendSettings} {s t : ApiSystem} {w w' : BackendWorld} {i : Nat}
  {h h' : Handler} {q : HttpRequest} {user : String}

/-! ## The handlers as callers of the backend -/

/-- A step of a call of a service, or of the handler alone. -/
theorem Handler.call_cases {k : Slot} {a : ServiceAct} {ph : HandlerPhase}
    {r : BackendWorld × Handler} (hr : h.call cfg i w k a ph = some r) :
    ∃ l, serviceStep cfg (slotIndex (i, k)) w (h.calls k) a = some (r.1, l) ∧
      r.2 = ⟨ph, Function.update h.calls k l⟩ := by
  obtain ⟨r', hr', rfl⟩ := Option.map_eq_some_iff.1 hr
  exact ⟨r'.2, hr', rfl⟩

/-- The handler leaves the backend and its calls, or one of its calls steps. -/
def Handler.Steps (cfg : BackendSettings) (i : Nat) (w : BackendWorld) (h : Handler)
    (r : BackendWorld × Handler) : Prop :=
  (r.1 = w ∧ r.2.calls = h.calls) ∨
  ∃ k a l, serviceStep cfg (slotIndex (i, k)) w (h.calls k) a = some (r.1, l) ∧
    r.2.calls = Function.update h.calls k l

theorem Handler.Steps.moved (ph : HandlerPhase) : h.Steps cfg i w (w, h.to ph) := .inl ⟨rfl, rfl⟩

theorem Handler.Steps.called {k : Slot} {a : ServiceAct} {ph : HandlerPhase}
    {r : BackendWorld × Handler} (hr : h.call cfg i w k a ph = some r) : h.Steps cfg i w r := by
  obtain ⟨l, hl, he⟩ := Handler.call_cases hr
  exact .inr ⟨k, a, l, hl, by rw [he]⟩

/-- A step of a handler is a step of one of its calls, or leaves them and the backend. -/
theorem handlerStep_steps {a : HandlerAct} {r : BackendWorld × Handler}
    (hr : handlerStep cfg i w h a = some r) : h.Steps cfg i w r := by
  cases a with
  | receive | post | extend =>
    simp only [handlerStep] at hr
    split at hr <;> cases hr
    exact .moved _
  | service k a =>
    simp only [handlerStep] at hr
    split at hr
    · split at hr
      · exact .called hr
      · cases hr
    · split at hr
      · exact .called hr
      · cases hr
    · split at hr
      · exact .called hr
      · cases hr
    · exact .called hr
    · cases hr
  | next dies =>
    simp only [handlerStep] at hr
    split at hr
    · split at hr
      · cases hr; exact .moved _
      · unfold Handler.start at hr
        split at hr
        · exact .called hr
        · exact .called hr
        all_goals cases hr; exact .moved _
    · split at hr
      · cases hr; exact .moved _
      · split at hr <;> cases hr <;> exact .moved _
    · split at hr
      · cases hr; exact .moved _
      · unfold Handler.proceed at hr
        split at hr
        · cases hr; exact .moved _
        · split at hr
          · cases hr; exact .moved _
          · exact .called hr
        · exact .called hr
        all_goals cases hr
    · obtain ⟨r', -, rfl⟩ := Option.map_eq_some_iff.1 hr
      exact .moved _
    · cases hr; exact .moved _
    · cases hr; exact .moved _
    · exact .called hr
    · split at hr
      · exact .called hr
      · cases hr; exact .moved _
      · cases hr
    · split at hr <;> cases hr <;> exact .moved _
    all_goals cases hr

/-- The handlers make calls of the backend. -/
theorem api_hosts (cfg : BackendSettings) :
    Hosts (backendProgram cfg) (apiProgram cfg) Handler.calls slotIndex where
  call hr := handlerStep_steps hr
  env he := he

/-- What the API reaches, the backend reaches. -/
theorem api_backend (hs : Reachable ApiSystem.Initial (apiStep cfg) s) :
    Reachable BackendSystem.Initial (backendStep cfg) s.backend :=
  (api_hosts cfg).reachable (fun _ h => h.backend) hs

/-- What a step of the API leaves. -/
theorem apiStep_later (hs : Reachable ApiSystem.Initial (apiStep cfg) s)
    {a : Act HandlerAct Nat} (h : apiStep cfg s a = some t) : BackendLater s.shared t.shared := by
  obtain ⟨as, has⟩ := (api_hosts cfg).step h
  exact backendRun_later (api_backend hs) has

/-- What the calls of a handler know. -/
theorem api_about (hs : Reachable ApiSystem.Initial (apiStep cfg) s) (i : Nat) (k : Slot) :
    ((s.locals i).calls k).About cfg s.shared := by
  have h := backend_about (api_backend hs) (slotIndex (i, k))
  rwa [ApiSystem.backend, Sys.hosted_index] at h

/-- How the calls of a handler fail. -/
theorem api_fails (hs : Reachable ApiSystem.Initial (apiStep cfg) s) (i : Nat) (k : Slot) :
    ((s.locals i).calls k).Fails := by
  have h := backend_fails (api_backend hs) (slotIndex (i, k))
  rwa [ApiSystem.backend, Sys.hosted_index] at h

/-! ## Refusals -/

/-- What a request is refused with before its handler runs. -/
inductive Refusal (q : HttpRequest) : HttpResponse → Prop
  | form {texto} : q.undecodable = some (.form texto) → Refusal q ⟨400, .detail texto, none⟩
  | unreadable : q.undecodable = some .unreadable →
    Refusal q ⟨400, .detail errorParsingBody, none⟩
  | json {pos} : q.route.parsed ≠ [] → q.undecodable = some (.json pos) →
    Refusal q (validationError [["body", toString pos]])
  | invalid {locs} : q.route.parsed ≠ [] → locs ⊆ q.route.parsed → Refusal q (validationError locs)
  | oversized : q.route.multipart = true →
    Refusal q (errorResponse { clase := .imagenDemasiadoGrande })
  | unauthenticated : Refusal q (noAutenticado noAutenticadoMensaje)

/-- What is malformed are places that are parsed. -/
theorem HttpRequest.locs_subset :
    q.errors.filter q.route.parsed.contains ++ q.route.errors ⊆ q.route.parsed := by
  intro loc hloc
  rcases List.mem_append.1 hloc with hloc | hloc
  · exact List.contains_iff_mem.1 (List.mem_filter.1 hloc).2
  · unfold Route.errors at hloc
    split at hloc
    · next hroute =>
      rw [hroute]
      split at hloc
      · rw [List.mem_singleton.1 hloc]
        simp [Route.parsed]
      · cases hloc
    · cases hloc

/-- Only a request that has something to parse is malformed. -/
theorem HttpRequest.parsed_of_locs
    (h : (q.errors.filter q.route.parsed.contains ++ q.route.errors).isEmpty ≠ true) :
    q.route.parsed ≠ [] := by
  intro hnil
  refine h ?_
  cases hroute : q.route <;> rw [hroute] at hnil <;> cases hnil
  simp [Route.parsed, Route.errors]

/-- What a request is refused with, by the check that refuses it. -/
theorem HttpRequest.refusal {r : HttpResponse} (h : q.checked = .error r) : Refusal q r := by
  unfold checked at h
  split at h
  · next hmal =>
    cases h
    unfold malformed? at hmal
    split at hmal <;> cases hmal
    · next hroute hund => exact .json (by rw [hroute]; exact List.cons_ne_nil _ _) hund
    · next hund => exact .form hund
    · next hund => exact .form hund
    all_goals exact .unreadable ‹_›
  split at h
  · next hbig =>
    cases h
    exact .oversized (Bool.and_eq_true_iff.1 hbig).1
  split at h
  · cases h; exact .unauthenticated
  dsimp only at h
  split at h <;> cases h
  exact .invalid (parsed_of_locs ‹_›) locs_subset

/-- A request that is not refused has an account. -/
theorem HttpRequest.account_of_checked (h : q.checked = .ok user) : q.account = some user := by
  unfold checked at h
  split at h
  · cases h
  split at h
  · cases h
  split at h
  · cases h
  next user' hacc =>
  dsimp only at h
  split at h <;> cases h
  exact hacc

/-! ## Answers -/

/-- How the handler of a route fails. -/
def Route.raises : Route → Raises
  | .registrarDocumento .. => registerRaises
  | .obtenerMiPasajero => { clases := [.pasajeroNoRegistrado], causas := [.connection, .nul] }
  | .verificarSelfie _ =>
    { verifyRaises with
      clases := .datosInvalidos :: verifyRaises.clases
      datos := [("Invalid data", ["selfie"])] }
  | .emitirPase _ => issueRaises
  | .obtenerPase _ => { clases := [.credencialNoEncontrada], causas := [.connection, .nul] }

/-- A response of a route to an account. -/
inductive Answer (cfg : BackendSettings) (w : BackendWorld) (user : String) :
    Route → HttpResponse → Prop
  | failed {route f} : f.Of route.raises → Answer cfg w user route (failureResponse f)
  | mine {p} : PasajeroOf w user p →
    Answer cfg w user .obtenerMiPasajero ⟨200, .pasajero (.fromDomain p), none⟩
  | registered {nombre tipo numero fecha foto p created} : PasajeroOf w user p →
    Answer cfg w user (.registrarDocumento nombre tipo numero fecha foto)
      (registerResponse (.ok (p, created)))
  | verified {selfie id o} : Owns w.pasajeros user id → Answered w.verification id o →
    Counted w.verification o → o.Given cfg.verificacion →
    Answer cfg w user (.verificarSelfie selfie) (verifyResponse (.ok o))
  | issued {codigo pass} : PassOf cfg.pases w.credentials user pass →
    Answer cfg w user (.emitirPase codigo) (issueResponse (.ok pass))
  | detailed {id pasajeroId c hist} : Owns w.pasajeros user pasajeroId →
    DetailOf w.credentials id pasajeroId c → HistorialOf w.credentials c hist →
    Answer cfg w user (.obtenerPase id) (detailResponse (.ok (c, hist)))

/-- The call that a handler makes for a route is one of the account. -/
def Route.Serves (w : BackendWorld) (user : String) : Route → Service → Prop
  | .registrarDocumento .., .registration (.register q _) => q.clerkUserId = user
  | .verificarSelfie _, .verification (.verify p _ _) => Owns w.pasajeros user p.id
  | .emitirPase _, .credentials (.issue u _ _) => u = user
  | .obtenerPase id, .credentials (.detail jti pasajeroId _) =>
    jti = id ∧ Owns w.pasajeros user pasajeroId
  | _, _ => False

/-- What a handler knows of its request. -/
def Handler.OK (cfg : BackendSettings) (w : BackendWorld) (h : Handler) : Prop :=
  match h.phase with
  | .mine q user => q.checked = .ok user ∧ q.route.sinPasajero ∈ q.route.raises.clases
  | .withIdentity q user p => q.checked = .ok user ∧ PasajeroOf w user p
  | .serving q user => q.checked = .ok user ∧ q.route.Serves w user (h.calls q.route.slot)
  | .responded q r => q.checked = .error r ∨
    ∃ user, q.checked = .ok user ∧ Answer cfg w user q.route r
  | _ => True

/-! ## Stability -/

/-- An answer stays true under what every step of the backend leaves. -/
theorem Answer.stable (hk : BackendLater w w') {route : Route} {r : HttpResponse}
    (ha : Answer cfg w user route r) : Answer cfg w' user route r := by
  cases ha with
  | failed hf => exact .failed hf
  | mine hp => exact .mine (hp.stable hk)
  | registered hp => exact .registered (hp.stable hk)
  | verified ho ha hc hg =>
    exact .verified (ho.stable hk.pasajeros) (ha.stable hk.verification)
      (hc.stable hk.verification) hg
  | issued hp => exact .issued (hp.stable hk.pasajeros hk.tables)
  | detailed ho hd hh =>
    exact .detailed (ho.stable hk.pasajeros) (hd.stable hk.tables) (hh.stable hk.tables)

/-- Whose call a handler makes survives every step. -/
theorem Route.Serves.stable (hk : BackendLater w w') {route : Route} {l : Service}
    (hs : route.Serves w user l) : route.Serves w' user l := by
  unfold Serves at hs ⊢
  split at hs
  · exact hs
  · exact hs.stable hk.pasajeros
  · exact hs
  · exact ⟨hs.1, hs.2.stable hk.pasajeros⟩
  · exact hs.elim

/-- What a handler knows survives the steps of the others. -/
theorem Handler.OK.stable (hk : BackendLater w w') (ho : h.OK cfg w) : h.OK cfg w' := by
  unfold OK at ho ⊢
  split at ho
  · exact ho
  · exact ⟨ho.1, ho.2.stable hk⟩
  · exact ⟨ho.1, ho.2.stable hk⟩
  · rcases ho with he | ⟨user, hu, ha⟩
    · exact .inl he
    · exact .inr ⟨user, hu, ha.stable hk⟩
  · trivial

/-! ## Steps -/

/-- A step of a service leaves whose call it is. -/
theorem Route.Serves.step {route : Route} {l l' : Service} {j : Nat} {a : ServiceAct}
    (hs : route.Serves w user l) (h : serviceStep cfg j w l a = some (w', l')) :
    route.Serves w user l' := by
  unfold Serves at hs
  split at hs
  · cases a with
    | registration a =>
      obtain ⟨r, hr, he⟩ := Option.map_eq_some_iff.1 h
      cases he
      cases a with
      | register => cases hr
      | next ch =>
        obtain ⟨r', -, rfl⟩ := Option.map_eq_some_iff.1 hr
        exact hs
    | verification | credentials => cases h
  · cases a with
    | verification a =>
      simp only [serviceStep] at h
      split at h
      · cases h
      obtain ⟨r, hr, he⟩ := Option.map_eq_some_iff.1 h
      cases he
      cases a with
      | verify | dispatcher => cases hr
      | next ch =>
        obtain ⟨r', -, rfl⟩ := Option.map_eq_some_iff.1 hr
        exact hs
    | registration | credentials => cases h
  · cases a with
    | credentials a =>
      obtain ⟨r, hr, he⟩ := Option.map_eq_some_iff.1 h
      cases he
      cases a with
      | invoke => cases hr
      | next ch =>
        obtain ⟨r', -, rfl⟩ := Option.map_eq_some_iff.1 hr
        exact hs
    | registration | verification => cases h
  · cases a with
    | credentials a =>
      obtain ⟨r, hr, he⟩ := Option.map_eq_some_iff.1 h
      cases he
      cases a with
      | invoke => cases hr
      | next ch =>
        obtain ⟨r', -, rfl⟩ := Option.map_eq_some_iff.1 hr
        exact hs
    | registration | verification => cases h
  · exact hs.elim

/-- What a handler makes of the end of its call is an answer of its route. -/
theorem Route.Serves.answer {route : Route} {l : Service} {r : HttpResponse}
    (hs : route.Serves w user l) (hl : l.About cfg w) (hf : l.Fails)
    (h : l.response? = some r) : Answer cfg w user route r := by
  unfold Service.response? at h
  split at h
  · next q res =>
    cases h
    cases route with
    | registrarDocumento =>
      obtain rfl : q.clerkUserId = user := hs
      cases res with
      | ok a => exact .registered hl
      | error f => exact .failed (hf f rfl)
    | _ => exact hs.elim
  · next p selfie res =>
    cases h
    cases route with
    | verificarSelfie =>
      cases res with
      | ok o => exact .verified hs (hl.2 _ o rfl).1 (hl.2 _ o rfl).2 hl.1
      | error f =>
        refine .failed (Failure.Of.mono (hf f rfl) ⟨List.subset_cons_self _ _, ?_, ?_⟩)
        · exact List.Subset.refl _
        · exact List.nil_subset _
    | _ => exact hs.elim
  · next u codigo res =>
    cases h
    cases route with
    | emitirPase =>
      obtain rfl : u = user := hs
      cases res with
      | ok pass => exact .issued hl
      | error f => exact .failed (hf f rfl)
    | _ => exact hs.elim
  · next jti pasajeroId now res =>
    cases h
    cases route with
    | obtenerPase id =>
      obtain ⟨rfl, hown⟩ := hs
      cases res with
      | ok a => exact .detailed hown hl.1 hl.2
      | error f =>
        refine .failed (Failure.Of.mono (hf f rfl) ⟨List.Subset.refl _, ?_, List.Subset.refl _⟩)
        exact List.cons_subset_cons _ (List.nil_subset _)
    | _ => exact hs.elim
  · cases h

/-! ## The handlers -/

/-- A call of `register` starts. -/
theorem serviceStep_register {j : Nat} {l : Service} {q : RegisterRequest}
    {r : BackendWorld × Service}
    (h : serviceStep cfg j w l (.registration (.register q)) = some r) :
    r.2 = .registration (.register q .start) := by
  cases l with
  | registration l =>
    obtain ⟨r', hr', rfl⟩ := Option.map_eq_some_iff.1 h
    cases l with
    | idle => cases hr'; rfl
    | register => cases hr'
  | verification | credentials => cases h

/-- A call of `verify_and_create_identity` starts. -/
theorem serviceStep_verify {j : Nat} {l : Service} {p : Pasajero} {selfie : ImageInput}
    {r : BackendWorld × Service}
    (h : serviceStep cfg j w l (.verification (.verify p selfie)) = some r) :
    r.2 = .verification (.verify p selfie .start) := by
  cases l with
  | verification l =>
    simp only [serviceStep] at h
    split at h
    · cases h
    obtain ⟨r', hr', rfl⟩ := Option.map_eq_some_iff.1 h
    cases l with
    | idle => cases hr'; rfl
    | verify | dispatcher => cases hr'
  | registration | credentials => cases h

/-- A call of the credential services starts. -/
theorem serviceStep_invoke {j : Nat} {l : Service} {q : Request} {r : BackendWorld × Service}
    (h : serviceStep cfg j w l (.credentials (.invoke q)) = some r) :
    r.2 = .credentials (.start q) := by
  cases l with
  | credentials l =>
    obtain ⟨r', hr', rfl⟩ := Option.map_eq_some_iff.1 h
    cases l with
    | idle => cases hr'; rfl
    | mayBeUsable jti answer => cases answer <;> cases hr'
    | issue | consume | revokeById | detail | sweep => cases hr'
  | registration | verification => cases h

/-- A handler that has made its call for the account. -/
theorem Handler.OK.of_call {k : Slot} {a : ServiceAct} {r : BackendWorld × Handler}
    (hq : q.checked = .ok user) (hk : q.route.slot = k)
    (hr : h.call cfg i w k a (.serving q user) = some r)
    (hs : ∀ r', serviceStep cfg (slotIndex (i, k)) w (h.calls k) a = some r' →
      q.route.Serves r'.1 user r'.2) : r.2.OK cfg r.1 := by
  obtain ⟨l, hl, he⟩ := Handler.call_cases hr
  have hself : Function.update h.calls k l q.route.slot = l := by rw [hk, Function.update_self]
  rw [he]
  refine ⟨hq, ?_⟩
  simp only [hself]
  exact hs _ hl

/-- The handler of a request that nothing refuses knows what it has to. -/
theorem Handler.start_ok (hq : q.checked = .ok user) {r : BackendWorld × Handler}
    (hr : h.start cfg i w q user = some r) : r.2.OK cfg r.1 := by
  unfold start at hr
  split at hr
  · next hroute =>
    refine .of_call hq (by rw [hroute]; rfl) hr fun r' hr' => ?_
    rw [serviceStep_register hr', hroute]
    rfl
  · next hroute =>
    refine .of_call hq (by rw [hroute]; rfl) hr fun r' hr' => ?_
    rw [serviceStep_invoke hr', hroute]
    rfl
  · next hroute => cases hr; exact ⟨hq, by rw [hroute]; simp [Route.sinPasajero, Route.raises]⟩
  · next hroute =>
    cases hr
    exact ⟨hq, by rw [hroute]; simp [Route.sinPasajero, Route.raises, verifyRaises]⟩
  · next hroute => cases hr; exact ⟨hq, by rw [hroute]; simp [Route.sinPasajero, Route.raises]⟩

/-- So does the handler that has read the passenger of the account. -/
theorem Handler.proceed_ok (hq : q.checked = .ok user) {p : Pasajero} (hp : PasajeroOf w user p)
    {r : BackendWorld × Handler} (hlater : BackendLater w r.1)
    (hr : h.proceed cfg i w q user p = some r) : r.2.OK cfg r.1 := by
  obtain ⟨row, hrow, hu, -⟩ := hp.row
  have hown : Owns r.1.pasajeros user p.id := Owns.stable hlater.pasajeros ⟨row, hrow, hu⟩
  unfold proceed at hr
  split at hr
  · next hroute =>
    cases hr
    exact .inr ⟨user, hq, by rw [hroute]; exact .mine hp⟩
  · next selfie hroute =>
    split at hr
    · cases hr
      refine .inr ⟨user, hq, ?_⟩
      rw [hroute]
      exact .failed (f := .domain _) (.datos List.mem_cons_self List.mem_cons_self
        (List.Subset.refl _))
    · obtain ⟨l, hl, he⟩ := Handler.call_cases hr
      refine .of_call hq (by rw [hroute]; rfl) hr fun r' hr' => ?_
      rw [hl, Option.some.injEq] at hr'
      subst hr'
      rw [hroute, show l = _ from serviceStep_verify hl]
      exact hown
  · next id hroute =>
    obtain ⟨l, hl, he⟩ := Handler.call_cases hr
    refine .of_call hq (by rw [hroute]; rfl) hr fun r' hr' => ?_
    rw [hl, Option.some.injEq] at hr'
    subst hr'
    rw [hroute, show l = _ from serviceStep_invoke hl]
    exact ⟨rfl, hown⟩
  all_goals cases hr

/-- A handler that no request waits for has nothing to know. -/
theorem Handler.OK.of_quiet {k : Slot} {a : ServiceAct} {ph : HandlerPhase}
    {r : BackendWorld × Handler} (hr : h.call cfg i w k a ph = some r)
    (hph : ∀ calls, Handler.OK cfg r.1 ⟨ph, calls⟩) : r.2.OK cfg r.1 := by
  obtain ⟨l, -, he⟩ := Handler.call_cases hr
  rw [he]
  exact hph _

/-- Every route reads the database. -/
theorem Route.causas_mem (route : Route) :
    .connection ∈ route.raises.causas ∧ .nul ∈ route.raises.causas := by
  cases route <;> simp [raises, registerRaises, verifyRaises, issueRaises]

/-- The database failed the handler. -/
theorem Handler.OK.of_database (hq : q.checked = .ok user) :
    (h.to (.responded q (failureResponse .database))).OK cfg w :=
  .inr ⟨user, hq, .failed (f := .database) ⟨.connection, rfl, q.route.causas_mem.1⟩⟩

/-- One step of a handler keeps what it knows of its request. -/
theorem handlerStep_ok (hv : VerificationOK w.verification) (ho : h.OK cfg w)
    (habout : ∀ k, (h.calls k).About cfg w) (hfails : ∀ k, (h.calls k).Fails) {a : HandlerAct}
    {r : BackendWorld × Handler} (hlater : BackendLater w r.1)
    (hr : handlerStep cfg i w h a = some r) : r.2.OK cfg r.1 := by
  unfold Handler.OK at ho
  cases a with
  | receive | post | extend =>
    simp only [handlerStep] at hr
    split at hr <;> cases hr
    trivial
  | service k a =>
    simp only [handlerStep] at hr
    split at hr
    · next q user hph =>
      rw [hph] at ho hr
      split at hr
      · next hk =>
        refine .of_call ho.1 hk.symm hr fun r' hr' => ?_
        obtain ⟨l, hl, he⟩ := Handler.call_cases hr
        rw [hl, Option.some.injEq] at hr'
        subst hr' hk
        exact (ho.2.step hl).stable hlater
      · cases hr
    · next hph =>
      rw [hph] at hr
      split at hr
      · exact .of_quiet hr fun _ => trivial
      · cases hr
    · next hph =>
      rw [hph] at hr
      split at hr
      · exact .of_quiet hr fun _ => trivial
      · cases hr
    · next hph =>
      rw [hph] at hr
      exact .of_quiet hr fun _ => trivial
    · cases hr
  | next dies =>
    simp only [handlerStep] at hr
    split at hr
    · next q hph =>
      split at hr
      · next hq => cases hr; exact .inl hq
      · next user hq => exact Handler.start_ok hq hr
    · next q user hph =>
      rw [hph] at ho
      split at hr
      · cases hr; exact .of_database ho.1
      split at hr
      · next htexto =>
        cases hr
        exact .inr ⟨user, ho.1, .failed (.text htexto q.route.causas_mem.2)⟩
      · cases hr
        exact .inr ⟨user, ho.1, .failed (f := .domain _) (.plain ho.2 (by cases q.route <;> rfl))⟩
      · next hread => cases hr; exact ⟨ho.1, pasajeroOf_read hv hread⟩
    · next q user p hph =>
      rw [hph] at ho
      split at hr
      · cases hr; exact .of_database ho.1
      · exact Handler.proceed_ok ho.1 ho.2.withIdentity hlater hr
    · next q user hph =>
      rw [hph] at ho
      obtain ⟨res, hres, rfl⟩ := Option.map_eq_some_iff.1 hr
      exact .inr ⟨user, ho.1, ho.2.answer (habout _) (hfails _) hres⟩
    · cases hr; trivial
    · cases hr; trivial
    · exact .of_quiet hr fun _ => trivial
    · split at hr
      · exact .of_quiet hr fun _ => trivial
      · cases hr; trivial
      · cases hr
    · split at hr <;> cases hr <;> trivial
    all_goals cases hr

/-- **The handlers.** In every reachable state of the API each handler has refused its request, or
works for the account of its request and answers it. -/
theorem api_handlers (hs : Reachable ApiSystem.Initial (apiStep cfg) s) (i : Nat) :
    (s.locals i).OK cfg s.shared := by
  refine Reachable.invariant_of (I := fun s : ApiSystem => ∀ i, (s.locals i).OK cfg s.shared)
    (fun s h j => ?_) (fun s a t hs hl hst j => ?_) hs i
  · rw [h.handlers]
    trivial
  · have hlater := apiStep_later hs hst
    rcases Program.step_cases hst with ⟨i, b, r, rfl, hc, hsh, hi, hother⟩ | ⟨e, rfl, he, hloc⟩
    · refine Sys.forall_locals (t := t) (fun _ l => l.OK cfg t.shared) ?_ hother
        (fun k _ => (hl k).stable hlater) j
      have hv := (backend_inv (api_backend hs)).verification
      rw [hi]
      rw [hsh] at hlater ⊢
      exact handlerStep_ok hv (hl i) (api_about hs i) (api_fails hs i) hlater hc
    · rw [hloc]
      exact (hl j).stable hlater

end Aeropass
