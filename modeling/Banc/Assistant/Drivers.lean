import Banc.Assistant.Stop
import Banc.Lib.History

/-!
# The drivers of the pins

A GPIO handler waits for the lock between the request and the answer, and a monitor
carries a pin's driver about with it while it runs. Seen from the host it is as if
each request of the GPIO endpoints were served at one moment, in the order in which
they were sent: a pin's driver, in its slot or with a monitor, is at every moment what
the requests that were accepted before have made of it, and the replies come in the
order of the requests. Monitoring a pin does not show in its driver.
-/

namespace Banc

namespace Assistant

variable {s s' u : State} {a : Action} {turn : Turn} {e : Effect} {t : Task} {i : TaskId}
  {n : ℕ} {p : Pin}

/-! ## Serving a request at one moment

Between the request and the answer a GPIO handler awaits the lock, and what the pins are
may change meanwhile. What it does with them it does in one turn, the one in which it has
the lock: that is the moment at which it is said to serve the request. An `Access` is all
that the answer depends on at that moment, and `driven` is what a pin's driver would be if
there were nothing but these accesses, one after the other. -/

/-- What a request does to the driver of its pin. -/
def Gpio.drive : Gpio → Flex → Flex
  | .config ⟨_, .input pull⟩, pin => (pin.setPull (icdPull pull)).setAsInput
  | .config ⟨_, .output⟩, pin => (pin.setPull .none).setAsOutput
  | .set ⟨_, .low⟩, pin => pin.setLow
  | .set ⟨_, .high⟩, pin => pin.setHigh
  | .read _, pin => pin

/-- What a request is answered that is accepted. -/
def Gpio.accept : Gpio → Bool → Response
  | .config _, _ => .ack (.ok ())
  | .set _, _ => .ack (.ok ())
  | .read _, level => .level (.ok (icdLevel level))

/-- A request, at the moment it is served. -/
structure Access where
  /-- The request's number. -/
  seqNo : ℕ
  rqst : Gpio
  /-- A monitor has the pin. -/
  monitored : Bool
  /-- What its pad reads. -/
  level : Bool
  deriving DecidableEq

/-- What it is answered: the range first, then the monitor, then the request itself. -/
def Access.response (x : Access) : Response :=
  match pinIndex x.rqst.pin with
  | none => x.rqst.refuse .unsupported
  | some _ => if x.monitored then x.rqst.refuse .busy else x.rqst.accept x.level

/-- The request is one on the pin, and accepted. -/
def Access.On (x : Access) (p : Pin) : Prop :=
  pinIndex x.rqst.pin = some p ∧ x.monitored = false

instance (x : Access) (p : Pin) : Decidable (x.On p) :=
  inferInstanceAs (Decidable (_ ∧ _))

/-- What requests make of the driver of a pin. -/
def driven (p : Pin) (served : List Access) : Flex :=
  (served.filter (fun x => x.On p)).foldl (fun pin x => x.rqst.drive pin) .new

/-- The handlers do that, and answer that. -/
theorem Gpio.handle_eq (rqst : Gpio) (pad : Pin → Bool) (slots : PinSlots) (idx : Pin) :
    rqst.handle pad slots idx
      = match slots idx with
        | none => (rqst.refuse .busy, slots)
        | some pin =>
          (rqst.accept (pad idx), Function.update slots idx (some (rqst.drive pin))) := by
  unfold Gpio.handle gpioConfigHandler gpioSetHandler gpioReadHandler withPin
  cases slots idx with
  | none => cases rqst <;> rfl
  | some pin =>
    cases rqst with
    | config rqst =>
      obtain ⟨_, _ | _⟩ := rqst
      · rfl
      · rfl
    | set rqst =>
      obtain ⟨_, _ | _⟩ := rqst
      · rfl
      · rfl
    | read rqst => rfl

/-- One request more, and only its own pin is driven by it. -/
theorem driven_append (p : Pin) (served : List Access) (x : Access) :
    driven p (served ++ [x])
      = if x.On p then x.rqst.drive (driven p served) else driven p served := by
  unfold driven
  rw [List.filter_append, List.foldl_append]
  split
  case isTrue h =>
    rw [List.filter_cons_of_pos (p := fun x : Access => decide (x.On p)) (decide_eq_true h)]
    rfl
  case isFalse h =>
    rw [List.filter_cons_of_neg (p := fun x : Access => decide (x.On p))
      (by rw [decide_eq_true_iff]; exact h)]
    rfl

/-! ## When the firmware serves a request

The moments are recorded as the run goes on. At each of them a pin's driver is in its slot,
or with the monitor that has the pin; the two are the same driver, for a monitor only
carries it about. -/

/-- A request on a pin that is out of range is served as it is taken. -/
def Request.servedAt (n : ℕ) : Request → List Access
  | .gpio rqst => if pinIndex rqst.pin = none then [⟨n, rqst, false, false⟩] else []
  | .pinMonitor _ => []

/-- The request the step serves: on a pin that is out of range it is refused as it is
taken, and on the others it is served when the handler has the lock. -/
def State.serves (s : State) : Action → List Access
  | .dispatch .poll =>
    match s.dispatch with
    | .receiving => (s.requests[s.taken]?.map (Request.servedAt s.taken)).getD []
    | .locking seqNo rqst idx => [⟨seqNo, rqst, decide (∃ i, s.holds i = some idx), s.pad idx⟩]
    | .replying _ _ _ => []
  | _ => []

/-- A monitor's request is served by its task, which is no matter of this order. -/
def Request.asGpio : Request → Option Gpio
  | .gpio rqst => some rqst
  | .pinMonitor _ => none

/-- The GPIO requests among those the host has sent, with their numbers. -/
def gpioOf (requests : List Request) : List (ℕ × Gpio) :=
  requests.zipIdx.filterMap (fun x => x.1.asGpio.map (fun rqst => (x.2, rqst)))

/-- The request that has been taken, and not been served. -/
def State.unserved (s : State) : List (ℕ × Gpio) :=
  match s.dispatch with
  | .locking seqNo rqst _ => [(seqNo, rqst)]
  | .receiving | .replying _ _ _ => []

/-- It is the number of a GPIO request. -/
def State.IsGpio (s : State) (n : ℕ) : Bool :=
  match s.requests[n]? with
  | some (.gpio _) => true
  | _ => false

/-- The replies to GPIO requests among the messages. -/
def State.gpioRepliesIn (s : State) (wire : List Message) : List (ℕ × Response) :=
  wire.filterMap (fun m =>
    match m with
    | .reply n response => if s.IsGpio n then some (n, response) else none
    | .pinEdge _ _ _ => none)

/-- Those on the wire. -/
def State.gpioReplies (s : State) : List (ℕ × Response) := s.gpioRepliesIn s.wire

/-- The reply that has still to go on the wire. -/
def State.unsent (s : State) : List (ℕ × Response) :=
  match s.dispatch with
  | .replying n response false => if s.IsGpio n then [(n, response)] else []
  | _ => []

/-- The driver a monitor has. -/
def Phase.carries : Phase → Option (Pin × Flex)
  | .confirming idx pin _ | .selecting idx pin _ _ | .publishing idx pin _ _ _
  | .restoring idx pin => some (idx, pin)
  | .spawned | .locking _ | .replying _ _ => none

/-- The driver of a pin, in its slot or with a monitor. -/
def State.Driver (s : State) (p : Pin) (pin : Flex) : Prop :=
  s.slots p = some pin ∨ ∃ i t, s.tasks i = some t ∧ t.phase.carries = some (p, pin)

/-- Who carries the driver of a pin has the pin. -/
theorem Phase.holds_of_carries {phase : Phase} {pin : Flex} (h : phase.carries = some (p, pin)) :
    phase.holds = some p := by
  cases phase with
  | spawned | locking | replying => exact absurd h nofun
  | confirming | selecting | publishing | restoring =>
    exact congrArg some (Prod.mk.inj (Option.some.inj h)).1

/-- And who has the pin carries a driver of it. -/
theorem Phase.carries_of_holds {phase : Phase} (h : phase.holds = some p) :
    ∃ pin, phase.carries = some (p, pin) := by
  cases phase with
  | spawned | locking | replying => exact absurd h nofun
  | confirming idx pin | selecting idx pin | publishing idx pin | restoring idx pin =>
    obtain rfl := Option.some.inj h
    exact ⟨pin, rfl⟩

/-- An edge is none of the driver's business. -/
theorem Task.edge_carries (p : Pin) (t : Task) : (t.edge p).phase.carries = t.phase.carries := by
  unfold Task.edge
  split
  case h_1 hphase =>
    rw [hphase]
    rfl
  case h_2 => rfl

/-- In its loop a monitor carries the driver it has taken. -/
theorem Task.Selects.carries {idx : Pin} {pin : Flex} {seq : UInt16} {edge : Bool}
    (h : t.Selects turn idx pin seq edge) : t.phase.carries = some (idx, pin) := by
  cases h with
  | confirmed hphase | woken hphase | published hphase =>
    rw [hphase]
    rfl

/-- Every pin has a driver. -/
theorem State.Sound.exists_driver (h : s.Sound) (p : Pin) : ∃ pin, s.Driver p pin := by
  cases hslot : s.slots p with
  | some pin => exact ⟨pin, .inl hslot⟩
  | none =>
    obtain ⟨i, hi⟩ := h.conserved.slot_eq_none.mp hslot
    obtain ⟨t, ht, hholds⟩ := Option.bind_eq_some_iff.mp hi
    obtain ⟨pin, hpin⟩ := Phase.carries_of_holds hholds
    exact ⟨pin, .inr ⟨i, t, ht, hpin⟩⟩

/-- **A turn of a monitor leaves the drivers as they are**: it has the driver it had,
or the one that was in the slot, and what it puts into the slot is the one it had. -/
theorem Path.carries (hpath : Path s t turn e) :
    (∀ phase pin, e.phase = some phase → phase.carries = some (p, pin) →
        t.phase.carries = some (p, pin) ∨ s.slots p = some pin)
      ∧ ∀ pin, e.slots p = some pin → s.slots p = some pin ∨ t.phase.carries = some (p, pin) := by
  cases hpath with
  | unsupported | signal | lock | busy =>
    refine ⟨fun phase pin hphase hcarries => ?_, fun pin hslot => .inl hslot⟩
    obtain rfl := Option.some.inj hphase
    exact absurd hcarries nofun
  -- the driver goes from the slot to the monitor
  | @take idx pin' _ hsome =>
    refine ⟨fun phase pin hphase hcarries => ?_, fun pin hslot => .inl ?_⟩
    · obtain rfl := Option.some.inj hphase
      obtain ⟨rfl, rfl⟩ := Prod.mk.inj (Option.some.inj hcarries)
      exact .inr hsome
    · replace hslot : Function.update s.slots idx none p = some pin := hslot
      by_cases hp : p = idx
      · subst hp
        rw [Function.update_self] at hslot
        exact absurd hslot nofun
      · rwa [Function.update_of_ne hp] at hslot
  | put hout =>
    refine ⟨fun phase pin hphase' hcarries => .inl ?_, fun pin hslot => .inl hslot⟩
    obtain rfl := Option.some.inj hphase'
    rcases Task.outgoing_cases hout with ⟨_, -, -, rfl⟩ | ⟨_, _, hphase, -, rfl⟩
      | ⟨_, _, _, _, hphase, -, rfl⟩
    · exact absurd hcarries nofun
    all_goals
      rw [hphase]
      exact hcarries
  | finish => exact ⟨fun _ _ hphase => absurd hphase nofun, fun pin hslot => .inl hslot⟩
  | unconfirmed hphase' =>
    refine ⟨fun phase pin hphase hcarries => .inl ?_, fun pin hslot => .inl hslot⟩
    obtain rfl := Option.some.inj hphase
    rw [hphase']
    exact hcarries
  | stopped hselect | edge hselect | wait hselect =>
    refine ⟨fun phase pin hphase hcarries => .inl ?_, fun pin hslot => .inl hslot⟩
    obtain rfl := Option.some.inj hphase
    exact hselect.carries.trans hcarries
  -- and back
  | @restore idx pin' hphase' =>
    refine ⟨fun _ _ hphase => absurd hphase nofun, fun pin hslot => ?_⟩
    replace hslot : Function.update s.slots idx (some pin') p = some pin := hslot
    by_cases hp : p = idx
    · subst hp
      rw [Function.update_self] at hslot
      obtain rfl := Option.some.inj hslot
      exact .inr (by rw [hphase']; rfl)
    · rw [Function.update_of_ne hp] at hslot
      exact .inl hslot

/-! ## One order of the requests

What is to be kept: the requests that were served, with the one in hand, are those that were
taken; each driver is what was made of it; the replies are in the same order. Only the
dispatcher has anything to do with the first and the last, and it is only a handler that
changes a driver. -/

/-- A request more is the last of them, if it is one of these. -/
theorem gpioOf_append (requests : List Request) (rqst : Request) :
    gpioOf (requests ++ [rqst])
      = gpioOf requests ++ (rqst.asGpio.map (fun g => (requests.length, g))).toList := by
  unfold gpioOf
  rw [List.zipIdx_append, List.filterMap_append]
  cases rqst with
  | gpio rqst => simp [Request.asGpio]
  | pinMonitor rqst => rfl

/-- The requests that have been taken, and the next. -/
theorem gpioOf_take {rqst : Request} (hn : s.requests[n]? = some rqst) :
    gpioOf (s.requests.take (n + 1))
      = gpioOf (s.requests.take n) ++ (rqst.asGpio.map (fun g => (n, g))).toList := by
  obtain ⟨hlt, -⟩ := List.getElem?_eq_some_iff.mp hn
  rw [List.take_add_one, hn]
  show gpioOf (s.requests.take n ++ [rqst]) = _
  rw [gpioOf_append, List.length_take, Nat.min_eq_left hlt.le]

/-- **The requests that have been served**, and what the firmware has made of them. -/
structure State.Served (s : State) (served : List Access) : Prop where
  /-- They are those that were taken, in their order, but for the one in hand. -/
  order : served.map (fun x => (x.seqNo, x.rqst)) ++ s.unserved
    = gpioOf (s.requests.take s.taken)
  /-- A driver is what they have made of it, wherever it is. -/
  driver : ∀ p pin, s.Driver p pin → pin = driven p served
  /-- The replies are among what they were answered: a sending may have failed. -/
  replies : (s.gpioReplies ++ s.unsent).Sublist (served.map (fun x => (x.seqNo, x.response)))

/-- The number is that of a request of the GPIO endpoints. -/
theorem isGpio_iff : s.IsGpio n = true ↔ ∃ rqst, s.requests[n]? = some (.gpio rqst) := by
  unfold State.IsGpio
  split
  case h_1 rqst h => exact iff_of_true rfl ⟨rqst, h⟩
  case h_2 h => exact iff_of_false nofun (fun ⟨rqst, hrqst⟩ => h rqst hrqst)

/-- What a request is, the host has said when it has sent it. -/
theorem Steps.isGpio (h : Steps s a s') (hn : n < s.requests.length) :
    s'.IsGpio n = s.IsGpio n := by
  have hget := h.request (List.getElem?_eq_getElem hn)
  unfold State.IsGpio
  rw [hget, List.getElem?_eq_getElem hn]

/-- So the replies that are on the wire are counted as they were. -/
theorem Steps.gpioRepliesIn (h : Steps s a s') (hnumbered : s.Numbered) :
    s'.gpioRepliesIn s.wire = s.gpioRepliesIn s.wire := by
  refine List.filterMap_congr (fun m hm => ?_)
  cases m with
  | pinEdge => rfl
  | reply n response =>
    dsimp only
    rw [h.isGpio ((hnumbered.replied n response hm).trans_le hnumbered.taken)]

namespace State.Served

variable {served : List Access}

/-- At the start nothing was served, and each slot has a new driver. -/
theorem start (pad : Pin → Bool) (now : UInt64) : (start pad now).Served [] where
  order := rfl
  driver p pin h := by
    rcases h with hslot | ⟨_, _, ht, -⟩
    · exact (Option.some.inj hslot).symm
    · exact absurd ht nofun
  replies := List.Sublist.refl []

/-- Steps in which the dispatcher takes no request, serves none and sends nothing. -/
theorem keep (h : s.Served served) (htaken : s'.taken = s.taken)
    (horder : s'.unserved = s.unserved)
    (hrequests : s'.requests.take s.taken = s.requests.take s.taken)
    (hdriver : ∀ p pin, s'.Driver p pin → s.Driver p pin)
    (hreplies : (s'.gpioReplies ++ s'.unsent).Sublist (s.gpioReplies ++ s.unsent)) :
    s'.Served served where
  order := by rw [htaken, hrequests, horder, h.order]
  driver p pin hpin := h.driver p pin (hdriver p pin hpin)
  replies := hreplies.trans h.replies

/-- Messages that are no replies to GPIO requests do not count. -/
theorem gpioRepliesIn_append {wire more : List Message} (hmore : s.gpioRepliesIn more = []) :
    s.gpioRepliesIn (wire ++ more) = s.gpioRepliesIn wire := by
  unfold State.gpioRepliesIn at hmore ⊢
  rw [List.filterMap_append, hmore, List.append_nil]

/-- A task replies to a `PinMonitor`. -/
theorem message_not_gpio (hnumbered : s.Numbered) (ht : s.tasks i = some t)
    (hpath : Path s t turn e) : s.gpioRepliesIn e.message.toList = [] := by
  have hnot : s.IsGpio t.seqNo = false := by
    rw [← Bool.not_eq_true, isGpio_iff]
    rintro ⟨rqst, hrqst⟩
    exact absurd ((hnumbered.task i t ht).2.symm.trans hrqst) nofun
  cases hmessage : e.message with
  | none => rfl
  | some message =>
    obtain ⟨-, phase, hout⟩ := hpath.message hmessage
    have hone (response : Response) : s.gpioRepliesIn [.reply t.seqNo response] = [] := by
      unfold State.gpioRepliesIn
      rw [List.filterMap_cons_none]
      · rfl
      · dsimp only
        rw [hnot]
        rfl
    rcases Task.outgoing_cases hout with ⟨_, -, rfl, -⟩ | ⟨_, _, -, rfl, -⟩
      | ⟨_, _, _, _, -, rfl, -⟩
    · exact hone _
    · exact hone _
    · rfl

/-- A request that is served: its reply is to be sent, and the driver of its pin is
what the request makes of it. -/
theorem serve (h : s.Served served) {x : Access} (hserves : s.serves a = [x])
    (hgpio : s.IsGpio x.seqNo = true) (hunsent : s.unsent = [])
    (hnumbers : s'.requests = s.requests) (hwire : s'.wire = s.wire)
    (hdispatch : s'.dispatch = .replying x.seqNo x.response false)
    (horder : gpioOf (s.requests.take s'.taken)
      = served.map (fun x => (x.seqNo, x.rqst)) ++ [(x.seqNo, x.rqst)])
    (hdriver : ∀ p pin, s'.Driver p pin → ∃ old, s.Driver p old
      ∧ pin = if x.On p then x.rqst.drive old else old) :
    s'.Served (served ++ s.serves a) where
  order := by
    have hunserved : s'.unserved = [] := by
      unfold State.unserved
      rw [hdispatch]
    rw [hserves, List.map_append, hunserved, List.append_nil, hnumbers, horder]
    rfl
  driver p pin hpin := by
    obtain ⟨old, hold, rfl⟩ := hdriver p pin hpin
    rw [hserves, driven_append, ← h.driver p old hold]
  replies := by
    have hisGpio (n : ℕ) : s'.IsGpio n = s.IsGpio n := by
      unfold State.IsGpio
      rw [hnumbers]
    have hreplies : s'.gpioReplies = s.gpioReplies := by
      unfold State.gpioReplies State.gpioRepliesIn
      rw [hwire, funext hisGpio]
    have hunsent' : s'.unsent = [(x.seqNo, x.response)] := by
      unfold State.unsent
      rw [hdispatch]
      dsimp only
      rw [hisGpio, if_pos hgpio]
    have hold := h.replies
    rw [hunsent, List.append_nil] at hold
    rw [hserves, hreplies, hunsent', List.map_append]
    exact hold.append (List.Sublist.refl _)

/-- A dispatcher that takes a request serves it then and there, or not yet. -/
theorem serves_receiving {rqst : Request} (hphase : s.dispatch = .receiving)
    (hrqst : s.requests[s.taken]? = some rqst) :
    s.serves (.dispatch .poll) = rqst.servedAt s.taken := by
  unfold State.serves
  dsimp only
  rw [hphase]
  dsimp only
  rw [hrqst]
  rfl

/-- A dispatcher that receives has no request in hand, and no reply. -/
theorem unserved_of_receiving (hphase : s.dispatch = .receiving) :
    s.unserved = [] ∧ s.unsent = [] := by
  unfold State.unserved State.unsent
  rw [hphase]
  exact ⟨rfl, rfl⟩

/-- The dispatcher takes a request that it does not serve at once. -/
theorem take (h : s.Served served) (hphase : s.dispatch = .receiving) {rqst : Request}
    (hrqst : s.requests[s.taken]? = some rqst) (hserves : rqst.servedAt s.taken = [])
    (htaken : s'.taken = s.taken + 1) (hnumbers : s'.requests = s.requests)
    (horder : s'.unserved = (rqst.asGpio.map (fun g => (s.taken, g))).toList)
    (hdriver : ∀ p pin, s'.Driver p pin → s.Driver p pin)
    (hwire : s'.wire = s.wire) (hunsent : s'.unsent = []) :
    s'.Served (served ++ s.serves (.dispatch .poll)) := by
  have hold := h.order
  rw [(unserved_of_receiving hphase).1, List.append_nil] at hold
  rw [serves_receiving hphase hrqst, hserves, List.append_nil]
  refine ⟨?_, fun p pin hpin => h.driver p pin (hdriver p pin hpin), ?_⟩
  · rw [htaken, hnumbers, gpioOf_take hrqst, horder, hold]
  · have hreplies : s'.gpioReplies = s.gpioReplies := by
      unfold State.gpioReplies State.gpioRepliesIn State.IsGpio
      rw [hwire, hnumbers]
    rw [hreplies, hunsent, List.append_nil]
    exact (List.sublist_append_left _ _).trans h.replies

/-- **A turn of the dispatcher** takes a request, serves one, or gets rid of its reply. -/
theorem dispatch (h : s.Served served) (hsound : s.Sound) (hpath : Dispatches s turn s') :
    s'.Served (served ++ s.serves (.dispatch turn)) := by
  have hnumbered := hsound.numbered
  cases hpath with
  -- a request to monitor is taken and is not one of these
  | @spawn rqst i hphase hrqst hfree =>
    refine h.take hphase hrqst rfl rfl rfl ?_ (fun p pin hpin => ?_) rfl ?_
    · exact (unserved_of_receiving hphase).1
    · refine hpin.imp id (fun ⟨j, u, hu, hcarries⟩ => ?_)
      replace hu : Function.update s.tasks i _ j = some u := hu
      by_cases hj : j = i
      · subst hj
        rw [Function.update_self] at hu
        obtain rfl := Option.some.inj hu
        exact absurd hcarries nofun
      · rw [Function.update_of_ne hj] at hu
        exact ⟨j, u, hu, hcarries⟩
    · exact (unserved_of_receiving hphase).2
  | full hphase hrqst =>
    refine h.take hphase hrqst rfl rfl rfl rfl (fun _ _ hpin => hpin) rfl ?_
    show (if s.IsGpio s.taken = true then _ else []) = []
    refine if_neg (fun hgpio => ?_)
    obtain ⟨rqst', hrqst'⟩ := isGpio_iff.mp hgpio
    exact absurd (hrqst.symm.trans hrqst') nofun
  -- it is in hand until the handler has the lock
  | @lock rqst idx hphase hrqst hpin =>
    refine h.take hphase hrqst (if_neg ?_) rfl rfl rfl (fun _ _ hpin => hpin) rfl rfl
    rw [hpin]
    exact nofun
  -- it is served as it is taken, and drives nothing
  | @unsupported rqst hphase hrqst hpin =>
    have hserves := (serves_receiving hphase hrqst).trans (if_pos hpin)
    have hresponse : Access.response ⟨s.taken, rqst, false, false⟩ = rqst.refuse .unsupported := by
      unfold Access.response
      dsimp only
      rw [hpin]
    refine h.serve hserves (isGpio_iff.mpr ⟨rqst, hrqst⟩) (unserved_of_receiving hphase).2 rfl rfl
      ?_ ?_ (fun p pin hold => ⟨pin, hold, ?_⟩)
    · rw [hresponse]
    · have hold := h.order
      rw [(unserved_of_receiving hphase).1, List.append_nil] at hold
      show gpioOf (s.requests.take (s.taken + 1)) = _
      rw [gpioOf_take hrqst, hold]
      rfl
    · refine (if_neg (fun hon => ?_)).symm
      exact absurd (hpin.symm.trans hon.1) nofun
  | @handle n rqst idx hphase =>
    have hfits := hnumbered.dispatch
    rw [hphase] at hfits
    obtain ⟨hrqst, hpin⟩ := hfits
    have hserves : s.serves (.dispatch .poll)
        = [⟨n, rqst, decide (∃ i, s.holds i = some idx), s.pad idx⟩] := by
      unfold State.serves
      dsimp only
      rw [hphase]
    have hunsent : s.unsent = [] := by
      unfold State.unsent
      rw [hphase]
    have horder : gpioOf (s.requests.take s.taken)
        = served.map (fun x => (x.seqNo, x.rqst)) ++ [(n, rqst)] := by
      rw [← h.order]
      unfold State.unserved
      rw [hphase]
    -- whether a monitor has the pin, the slot tells
    cases hslot : s.slots idx with
    | none =>
      have hheld : ∃ i, s.holds i = some idx := hsound.conserved.slot_eq_none.mp hslot
      have hhandle : rqst.handle s.pad s.slots idx = (rqst.refuse .busy, s.slots) := by
        rw [Gpio.handle_eq, hslot]
      refine h.serve hserves (isGpio_iff.mpr ⟨rqst, hrqst⟩) hunsent rfl rfl ?_ horder
        (fun p pin hold => ⟨pin, ?_, (if_neg (fun hon => ?_)).symm⟩)
      · show Dispatch.replying n (rqst.handle s.pad s.slots idx).1 false = _
        unfold Access.response
        dsimp only
        rw [hhandle, hpin, if_pos (decide_eq_true hheld)]
      · unfold State.Driver at hold ⊢
        rw [hhandle] at hold
        exact hold
      · exact absurd (hon.2.symm.trans (decide_eq_true hheld)) nofun
    | some old =>
      have hfree : ¬ ∃ i, s.holds i = some idx := fun hheld => by
        rw [hsound.conserved.slot_eq_none.mpr hheld] at hslot
        exact absurd hslot nofun
      have hhandle : rqst.handle s.pad s.slots idx
          = (rqst.accept (s.pad idx), Function.update s.slots idx (some (rqst.drive old))) := by
        rw [Gpio.handle_eq, hslot]
      refine h.serve hserves (isGpio_iff.mpr ⟨rqst, hrqst⟩) hunsent rfl rfl ?_ horder
        (fun p pin hnew => ?_)
      · show Dispatch.replying n (rqst.handle s.pad s.slots idx).1 false = _
        unfold Access.response
        dsimp only
        rw [hhandle, hpin, if_neg (by rw [decide_eq_true_iff]; exact hfree)]
      · unfold State.Driver at hnew
        rw [hhandle] at hnew
        by_cases hp : p = idx
        · subst hp
          refine ⟨old, .inl hslot, ?_⟩
          rw [if_pos ⟨hpin, decide_eq_false hfree⟩]
          rcases hnew with hslot' | ⟨j, u, hu, hcarries⟩
          · replace hslot' : Function.update s.slots p _ p = some pin := hslot'
            rw [Function.update_self] at hslot'
            exact (Option.some.inj hslot').symm
          · exact absurd ⟨j, (holds_of_task hu).trans (Phase.holds_of_carries hcarries)⟩ hfree
        · refine ⟨pin, hnew.imp_left (fun hslot' => ?_), (if_neg (fun hon => hp ?_)).symm⟩
          · exact (Function.update_of_ne hp ..).symm.trans hslot'
          · exact Option.some.inj (hon.1.symm.trans hpin)
  | @put n response hphase =>
    have hserves : s.serves (.dispatch .put) = [] := rfl
    have hunserved : s.unserved = [] := by
      unfold State.unserved
      rw [hphase]
    rw [hserves, List.append_nil]
    refine h.keep rfl hunserved.symm rfl (fun _ _ hpin => hpin) ?_
    -- the reply goes on the wire
    have hunsent : s.unsent = s.gpioRepliesIn [Message.reply n response] := by
      unfold State.unsent State.gpioRepliesIn
      rw [hphase]
      dsimp only [List.filterMap_cons]
      cases s.IsGpio n <;> rfl
    show (s.gpioRepliesIn (s.wire ++ [Message.reply n response]) ++ []).Sublist _
    rw [hunsent, List.append_nil]
    unfold State.gpioReplies State.gpioRepliesIn
    rw [List.filterMap_append]
  | @finish n response written ok hphase =>
    have hserves : s.serves (.dispatch (.done ok)) = [] := rfl
    have hunserved : s.unserved = [] := by
      unfold State.unserved
      rw [hphase]
    rw [hserves, List.append_nil]
    refine h.keep rfl hunserved.symm rfl (fun _ _ hpin => hpin) ?_
    show (s.gpioReplies ++ []).Sublist _
    rw [List.append_nil]
    exact List.sublist_append_left _ _

/-- **A step, with what it has served.** A task moves drivers about, and serves none of these.
-/
theorem step (h : s.Served served) (hsound : s.Sound) (hsteps : Steps s a s') :
    s'.Served (served ++ s.serves a) := by
  have hnumbered := hsound.numbered
  cases hsteps with
  | send rqst =>
    have hsteps := Steps.send (s := s) rqst
    have hunsent : State.unsent { s with requests := s.requests ++ [rqst] } = s.unsent := by
      unfold State.unsent
      dsimp only
      split
      case h_1 n response hphase =>
        obtain ⟨hlt, -⟩ := hnumbered.apart n (by rw [hphase]; rfl)
        rw [hsteps.isGpio (hlt.trans_le hnumbered.taken)]
      case h_2 => rfl
    have hserves : s.serves (.send rqst) = [] := rfl
    rw [hserves, List.append_nil]
    refine h.keep rfl rfl ?_ (fun _ _ h => h) ?_
    · show (s.requests ++ [rqst]).take s.taken = _
      rw [List.take_append_of_le_length hnumbered.taken]
    · unfold State.gpioReplies
      rw [hunsent]
      show ((State.gpioRepliesIn { s with requests := _ } s.wire) ++ _).Sublist _
      rw [hsteps.gpioRepliesIn hnumbered]
  | receive =>
    rw [show served ++ s.serves .receive = served from List.append_nil served]
    exact h.keep rfl rfl rfl (fun _ _ h => h) (List.Sublist.refl _)
  | tick us =>
    rw [show served ++ s.serves (.tick us) = served from List.append_nil served]
    exact h.keep rfl rfl rfl (fun _ _ h => h) (List.Sublist.refl _)
  | edge q =>
    rw [show served ++ s.serves (.edge q _) = served from List.append_nil served]
    refine h.keep rfl rfl rfl (fun p pin hpin => ?_) (List.Sublist.refl _)
    rcases hpin with hslot | ⟨i, u, hu, hcarries⟩
    · exact .inl hslot
    · obtain ⟨t, ht, rfl⟩ := Option.map_eq_some_iff.mp hu
      exact .inr ⟨i, t, ht, (t.edge_carries q).symm.trans hcarries⟩
  | dispatch hpath => exact h.dispatch hsound hpath
  | @task i t turn e ht hpath =>
    rw [show served ++ s.serves (.task i turn) = served from List.append_nil served]
    refine h.keep rfl rfl rfl (fun p pin hpin => ?_) ?_
    · rcases hpin with hslot | ⟨j, u, hu, hcarries⟩
      · rcases hpath.carries.2 pin hslot with hslot | hcarries
        · exact .inl hslot
        · exact .inr ⟨i, t, ht, hcarries⟩
      · rcases tasks_apply hu with ⟨rfl, phase, hphase, rfl⟩ | ⟨-, hsame⟩
        · rcases hpath.carries.1 phase pin hphase hcarries with hcarries | hslot
          · exact .inr ⟨j, t, ht, hcarries⟩
          · exact .inl hslot
        · exact .inr ⟨j, u, hsame, hcarries⟩
    · show (s.gpioRepliesIn (s.wire ++ e.message.toList) ++ s.unsent).Sublist _
      rw [gpioRepliesIn_append (message_not_gpio hnumbered ht hpath)]
      exact List.Sublist.refl _

end State.Served

/-- **The GPIO requests are served one after the other, in the order in which they were
sent, each at one moment**, and the monitors leave the drivers alone. -/
theorem gpio_linearized (pad : Pin → Bool) (now : UInt64) (actions : List Action) (s : State)
    (hrun : Transition.run step (start pad now) actions = some s) :
    let served := Transition.history step State.serves (start pad now) actions
    -- those that have been served are those that were taken, but the one in hand
    (served.map (fun x => (x.seqNo, x.rqst)) ++ s.unserved
        = gpioOf (s.requests.take s.taken))
      -- a pin has one driver, and it is what those that were accepted have made of it
      ∧ (∀ p, s.Driver p (driven p served) ∧ ∀ pin, s.Driver p pin → pin = driven p served)
      -- the replies come in their order, and say what was answered when they were served
      ∧ (s.gpioReplies ++ s.unsent).Sublist (served.map (fun x => (x.seqNo, x.response))) := by
  intro served
  have hrecorded := Transition.run_records
    (I := fun v served => v.Sound ∧ v.Served served)
    (fun v served a v' h hstep => ⟨h.1.step hstep, h.2.step h.1 (.of_step hstep)⟩)
    ⟨.start pad now, .start pad now⟩ hrun
  obtain ⟨hsound, hserved⟩ := hrecorded
  refine ⟨hserved.order, fun p => ⟨?_, hserved.driver p⟩, hserved.replies⟩
  obtain ⟨pin, hpin⟩ := hsound.exists_driver p
  exact hserved.driver p pin hpin ▸ hpin

/-- Pin 3 is made an output and set, and is then monitored: it can then be neither set
nor read, and stays as it was. -/
def drivenRun : List Action :=
  [.send (.gpio (.config ⟨3, .output⟩)), .send (.gpio (.set ⟨3, .high⟩)),
    .send (.pinMonitor ⟨3, true⟩), .send (.gpio (.set ⟨3, .low⟩)),
    .dispatch .poll, .dispatch .poll, .dispatch .put, .dispatch (.done true),
    .dispatch .poll, .dispatch .poll, .dispatch .put, .dispatch (.done true),
    .dispatch .poll, .task 0 .poll, .dispatch .poll, .task 0 .poll, .dispatch .poll,
    .dispatch .put]

/-- The refused request has left no trace in the driver, which the monitor has now. -/
theorem drivenRun_linearized :
    ∃ s, Transition.run step (start (fun _ => false) 0) drivenRun = some s
      ∧ s.slots 3 = none ∧ s.Driver 3 ⟨.none, true, true⟩
      ∧ s.gpioReplies.Sublist
        [(0, .ack (.ok ())), (1, .ack (.ok ())), (3, .ack (.error .busy))] := by
  have hend : (Transition.run step (start (fun _ => false) 0) drivenRun).map (fun s => s.slots 3)
      = some none := by
    decide +kernel
  obtain ⟨s, hrun, hslot⟩ := Option.map_eq_some_iff.mp hend
  obtain ⟨-, hdriver, hreplies⟩ := gpio_linearized _ _ _ s hrun
  have hserved : Transition.history step State.serves (start (fun _ => false) 0) drivenRun
      = [⟨0, .config ⟨3, .output⟩, false, false⟩, ⟨1, .set ⟨3, .high⟩, false, false⟩,
        ⟨3, .set ⟨3, .low⟩, true, false⟩] := by
    decide +kernel
  rw [hserved] at hdriver hreplies
  exact ⟨s, hrun, hslot, (hdriver 3).1, (List.sublist_append_left _ _).trans hreplies⟩

end Assistant

end Banc
