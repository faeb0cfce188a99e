import Banc.Net.Lease.Remote

/-!
# A server that predates `Status`

Variants are only appended to the messages of the lease protocol, so a server of before
does not know the last of them. It finds no variant of that index, and the connection
ends: what fails is this one request, and not the protocol. Such a server is the present
one with a codec that reads all requests but that (`LeaseCodec.beforeStatus`). For
postcard it is the reader without the last alternative (`fromBytes_beforeStatus`).

A client of today that asks it who holds the rig gets an error, as `query_status`
promises, and never that the rig is free. To everybody else its connection might as well
not be there, and where nobody asks the two servers do the same (`fails_one_request`).
-/

namespace Banc

/-- It reads all requests but `Status`. -/
def LeaseCodec.beforeStatus (codec : LeaseCodec) : LeaseCodec :=
  { codec with decodeRequest := fun bs => (codec.decodeRequest bs).filter (· ≠ .status) }

/-- A daemon of before. -/
def Daemon.Config.beforeStatus (cfg : Daemon.Config) : Daemon.Config :=
  { cfg with sessions := { cfg.sessions with codec := cfg.sessions.codec.beforeStatus } }

namespace Older

open Chunked
open Daemon (State Alike)
open Remote (Suited Peer queryStatus call hail)

/-! ## The format -/

section Postcard

open Postcard

/-- Read a request, when there was no `Status`. -/
def readLeaseRequest : Reader LeaseRequest := do
  let tag ← readUint 5 32
  match tag with
  | 0 => do
    let holder ← readString
    let ttlS ← readU32
    pure (.acquire holder ttlS)
  | 1 => do
    let id ← readU64
    pure (.renew id)
  | 2 => do
    let id ← readU64
    pure (.release id)
  | _ => lift none

/-- Of a reader of something else, nothing is filtered out. -/
theorem filter_fromBytes {p : Reader LeaseRequest} (hp : Yields p (· ≠ .status))
    (bs : List UInt8) : (fromBytes p bs).filter (· ≠ .status) = fromBytes p bs := by
  cases hread : fromBytes p bs with
  | none => rfl
  | some req => exact Option.filter_some_pos (decide_eq_true (hp.fromBytes hread))

/-- **Without the variant, the format is what it was.** -/
theorem fromBytes_beforeStatus (bs : List UInt8) :
    fromBytes readLeaseRequest bs = LeaseCodec.postcard.beforeStatus.decodeRequest bs := by
  have hany {α : Type} (p : Reader α) : Yields p (fun _ => True) :=
    Yields.of_forall (fun _ => trivial) p
  have hacquire : Yields (do
      let holder ← readString
      let ttlS ← readU32
      pure (LeaseRequest.acquire holder ttlS)) (· ≠ .status) :=
    (hany _).bind (fun holder _ => (hany _).bind (fun ttlS _ => Yields.pure (by simp)))
  have hid (f : UInt64 → LeaseRequest) (hf : ∀ id, f id ≠ .status) : Yields (do
      let id ← readU64
      pure (f id)) (· ≠ .status) :=
    (hany _).bind (fun id _ => Yields.pure (hf id))
  show (readLeaseRequest.run bs).map Prod.fst
    = ((Banc.readLeaseRequest.run bs).map Prod.fst).filter (· ≠ .status)
  unfold readLeaseRequest Banc.readLeaseRequest
  rw [StateT.run_bind, StateT.run_bind]
  cases (readUint 5 32).run bs with
  | none => rfl
  | some r =>
    obtain ⟨tag, rest⟩ := r
    match tag with
    | 0 => exact (filter_fromBytes hacquire rest).symm
    | 1 => exact (filter_fromBytes (hid .renew (by simp)) rest).symm
    | 2 => exact (filter_fromBytes (hid .release (by simp)) rest).symm
    | 3 => rfl
    | _ + 4 => rfl

end Postcard

/-! ## The requests it reads -/

theorem decodeRequest_beforeStatus {codec : LeaseCodec} {data : List UInt8} {req : LeaseRequest} :
    codec.beforeStatus.decodeRequest data = some req
      ↔ codec.decodeRequest data = some req ∧ req ≠ .status := by
  show (codec.decodeRequest data).filter (· ≠ .status) = some req ↔ _
  rw [Option.filter_eq_some_iff, decide_eq_true_iff]

/-- **It reads the requests up to the first `Status`.** -/
theorem requests_beforeStatus (codec : LeaseCodec) (bs : List UInt8) :
    Sessions.requests codec.beforeStatus bs
      = (Sessions.requests codec bs).takeWhile (· ≠ .status) := by
  induction bs using Sessions.requests.induct codec with
  | case1 bs e rest hread =>
    rw [Sessions.requests_of_error hread, Sessions.requests_of_error hread]
    rfl
  | case2 bs data rest hread hdecode =>
    have hnone : codec.beforeStatus.decodeRequest data = none := by
      show (codec.decodeRequest data).filter (· ≠ .status) = none
      rw [hdecode]
      rfl
    rw [Sessions.requests_of_undecodable hread hdecode,
      Sessions.requests_of_undecodable hread hnone]
    rfl
  | case3 bs data rest hread req hdecode ih =>
    rw [Sessions.requests_of_decoded hread hdecode]
    by_cases hreq : req = .status
    · have hnone : codec.beforeStatus.decodeRequest data = none := by
        show (codec.decodeRequest data).filter (· ≠ .status) = none
        rw [hdecode, hreq]
        rfl
      rw [Sessions.requests_of_undecodable hread hnone, hreq]
      rfl
    · rw [Sessions.requests_of_decoded hread (decodeRequest_beforeStatus.mpr ⟨hdecode, hreq⟩),
        ih]
      simp [hreq]

/-! ## Where nobody asks -/

section Unasked

variable {κ : Type} [DecidableEq κ] {cfg : Daemon.Config} {s s' : State κ}
  {a : Sessions.Action κ}

theorem read_beforeStatus {cfg : Sessions.Config} {now : ℕ} {minted : UInt64}
    {srv : LeaseServer} {c : Sessions.Conn}
    {r : LeaseServer × Sessions.Conn × Option Handled} (h : c.read cfg now minted srv = some r)
    (hreq : ∀ e ∈ r.2.2, e.call.req ≠ .status) :
    c.read { cfg with codec := cfg.codec.beforeStatus } now minted srv = some r := by
  unfold Sessions.Conn.read at h ⊢
  split at h
  · exact h
  · exact h
  · rename_i data rest hread
    split at h
    · rename_i hdecode
      have hnone : cfg.codec.beforeStatus.decodeRequest data = none := by
        show (cfg.codec.decodeRequest data).filter (· ≠ .status) = none
        rw [hdecode]
        rfl
      dsimp only
      rw [hnone]
      exact h
    · rename_i req hdecode
      obtain rfl := Option.some.inj h
      have hsome := decodeRequest_beforeStatus.mpr ⟨hdecode, hreq _ rfl⟩
      dsimp only at hsome ⊢
      rw [hsome]
      rfl

/-- **A step in which no `Status` is handled.** -/
theorem step_beforeStatus (h : Daemon.step cfg s a = some s')
    (hlog : ∀ x ∈ s'.log, x.2.call.req ≠ .status) :
    Daemon.step cfg.beforeStatus s a = some s' := by
  cases a with
  | tick d => exact h
  | arrive i bs => exact h
  | hangUp i => exact h
  | write i n => exact h
  | fail i => exact h
  | read i minted =>
    unfold Daemon.step at h ⊢
    dsimp only at h ⊢
    split at h
    · rename_i hphase
      rw [if_pos hphase]
      split at h
      · exact h
      · exact h
      · exact h
      · obtain ⟨r, hr, rfl⟩ := Option.map_eq_some_iff.mp h
        refine Option.map_eq_some_iff.mpr ⟨r, read_beforeStatus hr (fun e he => ?_), rfl⟩
        refine hlog (i, e) (List.mem_append_right _ (List.mem_map.mpr ⟨e, ?_, rfl⟩))
        exact Option.mem_toList.mpr he
    · exact absurd h nofun

/-- No `Status` has been handled. -/
def Unasked (s : State κ) : Prop := ∀ x ∈ s.log, x.2.call.req ≠ .status

theorem Unasked.of_step (h : Daemon.step cfg s a = some s') (hu : Unasked s') : Unasked s := by
  unfold Unasked at hu ⊢
  rcases Daemon.log_cases h with ⟨-, hlog⟩ | ⟨i, data, e, -, -, -, -, hlog⟩
  · rwa [hlog] at hu
  · rw [hlog] at hu
    exact fun x hx => hu x (List.mem_append_left _ hx)

/-- **A run in which none is handled** is one of the server of before. -/
theorem run_beforeStatus {as : List (Sessions.Action κ)}
    (hrun : Transition.run (Daemon.step cfg) s as = some s') (hu : Unasked s') :
    Transition.run (Daemon.step cfg.beforeStatus) s as = some s' := by
  induction as generalizing s with
  | nil => exact hrun
  | cons a as ih =>
    obtain ⟨t, ht, hrest⟩ := Transition.run_cons_eq_some.mp hrun
    obtain ⟨hmid, -⟩ := Transition.Guarded.of_last (fun _ _ _ => Unasked.of_step) hrest hu
    exact Transition.run_cons_eq_some.mpr ⟨t, step_beforeStatus ht hmid, ih hrest⟩

end Unasked

/-! ## Where somebody asks -/

section Asked

variable {κ : Type} [DecidableEq κ] {cfg : Daemon.Config} {s s' : State κ} {i : κ}
  {token : String} {srv : LeaseServer}

/-- **Its request is not handled.** -/
theorem handled_eq_nil (h : Suited cfg token .status) (hok : s.Ok cfg.beforeStatus)
    (hserved : s.sessions.Ok cfg.beforeStatus.sessions srv)
    (hstream : (s.links i).stream
      <+: hail cfg.hello token ++ frame (cfg.sessions.codec.encodeRequest .status)) :
    s.handled i = [] := by
  by_contra hne
  obtain ⟨rest, ⟨data, hello, hdata, hbs, hdecode, -⟩, hreqs⟩ :=
    Daemon.handled_opened hok hserved hne
  obtain ⟨-, more, hmore⟩ := Remote.hello_of_peer h.hello h.token hstream hdata hbs hdecode
  have hprefix := hreqs.trans (Remote.requests_mono rest more)
  rw [hmore] at hprefix
  have hnone : Sessions.requests cfg.beforeStatus.sessions.codec
      (frame (cfg.sessions.codec.encodeRequest .status)) = [] := by
    show Sessions.requests cfg.sessions.codec.beforeStatus _ = []
    rw [requests_beforeStatus, Remote.requests_frame h.codec h.representable h.request]
    rfl
  rw [hnone, List.prefix_nil, List.map_eq_nil_iff] at hprefix
  exact hne hprefix

/-- **And it is told nothing.** -/
theorem outcome_ne_ok (h : Suited cfg token .status) (hok : s.Ok cfg.beforeStatus)
    (hserved : s.sessions.Ok cfg.beforeStatus.sessions srv) {debugAssertions : Bool}
    {got : Stream} (hpeer : Peer s i got
      (queryStatus cfg.hello cfg.sessions.codec debugAssertions token got).written)
    (status : Remote.LeaseStatus) :
    (queryStatus cfg.hello cfg.sessions.codec debugAssertions token got).outcome
      ≠ .ok status := by
  intro hstatus
  obtain ⟨reply, hreply, -⟩ := Remote.andThen_eq_ok hstatus
  obtain ⟨data, rigName, data', rest, hdata, -, hgot, hdecode, -⟩ := Remote.call_ok hreply
  have hread := hpeer.read
  rw [hgot] at hread
  have hstream := hpeer.wrote.trans Remote.call_written
  have hhello : cfg.beforeStatus.hello.Faithful := h.hello
  have hreplies := Remote.replies_of_read hhello h.reply h.token hok hserved hstream hdata hread
    hdecode
  rw [handled_eq_nil h hok hserved hstream] at hreplies
  exact Remote.ne_nil_of_frame hreplies rfl

end Asked

/-! ## The one request that fails -/

variable {κ : Type} [DecidableEq κ]

/-- **What a client has asked a server of before fails, and nothing else.** For a daemon
whose server predates `Status`, in every run with any number of connections:

* a run of the present daemon in which no `Status` is handled is one of its runs, with
  the same state at its end;
* of a client that has called `query_status` nothing has been handled, and the call has
  not returned a status, whatever it has read so far;
* without any number of such clients, it would have done the same: the clock, the lease,
  the requests handled in their order, and everything about the other connections are as
  they are. -/
theorem fails_one_request (cfg : Daemon.Config) {s₀ : State κ} (hinit : s₀.Initial) :
    (∀ as s, Transition.run (Daemon.step cfg) s₀ as = some s →
        (∀ x ∈ s.log, x.2.call.req ≠ .status) →
        Transition.run (Daemon.step cfg.beforeStatus) s₀ as = some s)
      ∧ ∀ as s, Transition.run (Daemon.step cfg.beforeStatus) s₀ as = some s →
        (∀ i debugAssertions token got c, Suited cfg token .status →
          c = queryStatus cfg.hello cfg.sessions.codec debugAssertions token got →
          Peer s i got c.written →
          s.handled i = [] ∧ ∀ status, c.outcome ≠ .ok status)
        ∧ ∀ keep : κ → Bool, (∀ i, keep i = false → ∃ debugAssertions token got,
            Suited cfg token .status ∧ Peer s i got
              (queryStatus cfg.hello cfg.sessions.codec debugAssertions token got).written) →
          ∃ t, Transition.run (Daemon.step cfg.beforeStatus) s₀
              (as.filter (fun a => a.conn.all keep)) = some t
            ∧ Alike keep s t := by
  refine ⟨fun as s hrun hlog => run_beforeStatus hrun hlog, fun as s hrun => ?_⟩
  obtain ⟨hok, hserved, -⟩ := Daemon.ok_of_run hinit hrun
  constructor
  · rintro i debugAssertions token got c h rfl hpeer
    have hstream := hpeer.wrote.trans Remote.call_written
    exact ⟨handled_eq_nil h hok hserved hstream, outcome_ne_ok h hok hserved hpeer⟩
  · refine fun keep hasked => Daemon.exists_run_of_silent hrun (fun i hi => ?_)
    obtain ⟨debugAssertions, token, got, h, hpeer⟩ := hasked i hi
    exact handled_eq_nil h hok hserved (hpeer.wrote.trans Remote.call_written)

/-! ### Asking an older server while another client acquires -/

/-- Client 0 asks for the status, client 1 acquires. -/
def askedRun : List (Sessions.Action ℕ) :=
  [.arrive 0 (hail HelloCodec.postcard "token" ++ frame LeaseRequest.status.toPostcard),
    .arrive 1 (hail HelloCodec.postcard "token" ++ frame (acquireRequest "a").toPostcard),
    .read 0 0,
    .read 1 0,
    .write 0 100,
    .write 1 100,
    .read 0 6,
    .read 1 7,
    .write 1 100]

/-- What client 0 reads: its `Hello` is answered, and that is all. -/
def askedReply : Stream :=
  [.bytes 7 [0, 0, 0, 0, 5, 98], .bytes 101 [110, 99, 104]]

/-- **The one gets an error, the other the lease**, as it would without the first. -/
theorem askedRun_contained :
    (queryStatus HelloCodec.postcard LeaseCodec.postcard true "token" askedReply).outcome
        = .error (.io .short)
      ∧ ∃ s, Transition.run (Daemon.step Daemon.postcardDaemon.beforeStatus) Daemon.freeDaemon
          askedRun = some s
        ∧ (s.handled 1).map Handled.reply = [.granted 7] ∧ s.handled 0 = []
        ∧ ∃ t, Transition.run (Daemon.step Daemon.postcardDaemon.beforeStatus) Daemon.freeDaemon
              (askedRun.filter (fun a => a.conn.all (· ≠ 0))) = some t
            ∧ t.server = s.server ∧ t.links 1 = s.links 1 := by
  have houtcome : (queryStatus HelloCodec.postcard LeaseCodec.postcard true "token"
      askedReply).outcome = .error (.io .short) := by
    decide +kernel
  have hend : (Transition.run (Daemon.step Daemon.postcardDaemon.beforeStatus) Daemon.freeDaemon
      askedRun).map (fun s => ((s.handled 1).map Handled.reply, (s.links 0).sent,
        (s.links 0).stream))
      = some ([.granted 7], contents askedReply, (queryStatus HelloCodec.postcard
          LeaseCodec.postcard true "token" askedReply).written) := by
    decide +kernel
  obtain ⟨s, hrun, hs⟩ := Option.map_eq_some_iff.mp hend
  simp only [Prod.mk.injEq] at hs
  obtain ⟨hreplies, hsent, hstream⟩ := hs
  have hpeer : Peer s 0 askedReply (queryStatus HelloCodec.postcard LeaseCodec.postcard true
      "token" askedReply).written := ⟨hsent ▸ List.prefix_rfl, hstream ▸ List.prefix_rfl⟩
  have hsuited : Suited Daemon.postcardDaemon "token" .status :=
    Remote.suited_postcardDaemon trivial (by decide)
  have hinit : Daemon.freeDaemon.Initial := ⟨fun _ => rfl, rfl⟩
  obtain ⟨-, hasked⟩ := fails_one_request Daemon.postcardDaemon hinit
  obtain ⟨hnone, hkept⟩ := hasked askedRun s hrun
  obtain ⟨hhandled, -⟩ := hnone 0 true "token" askedReply _ hsuited rfl hpeer
  have hzero (i : ℕ) (hi : decide (i ≠ 0) = false) : i = 0 := by simpa using hi
  obtain ⟨t, ht, halike⟩ := hkept (fun i => i ≠ 0) (fun i hi => by
    obtain rfl := hzero i hi
    exact ⟨true, "token", askedReply, hsuited, hpeer⟩)
  exact ⟨houtcome, s, hrun, hreplies, hhandled, t, ht, halike.server, halike.links 1 rfl⟩

end Older

end Banc
