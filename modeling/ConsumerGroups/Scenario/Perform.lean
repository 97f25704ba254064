-- What is done in a scenario. The registry of a scenario is surrounded by its listeners and its
-- scripts, which do things in turn. Every reaction uses up one of a limited number, so a bound on
-- the depth is known before anything is done.
import ConsumerGroups.Scenario.Tasks

set_option autoImplicit false

namespace ConsumerGroups.Scenario

abbrev Doing := Op → World → World × Returned Answer

/-! ## Listeners and scripts -/

/-- Does one thing after another on behalf of a listener, who reports each answer. -/
def react (perform : Doing) (name group : String) : List Op → World → World × Returned Unit
  | [], w => (w, .ok ())
  | op :: rest, w =>
    andThen (perform op w) fun w answer =>
      react perform name group rest (World.record w ⟨name, group, .did op.label answer⟩)

def tell (perform : Doing) (l : Nat) (group : String) (event : Event) (w : World) :
    World × Outcome :=
  match w.outside.cast[l]? with
  | none => (w, .handled)
  | some role =>
    let kind := Labelled.label event.kind
    match role.manner with
    | .records => (World.record w ⟨role.name, group, .event event⟩, .handled)
    | .notes =>
      (World.setRole w l { role with notes := role.notes ++ [(group, event)] }, .handled)
    | .fails => (w, .failed s!"failing listener rejected {kind} for '{group}'")
    | .failsByName => (w, .failed s!"{role.name} failed")
    | .panics => (w, .panicked (some s!"panicking listener received {kind} for '{group}'"))
    | .panicsPlainly => (w, .panicked (some "static text"))
    | .panicsMutely => (w, .panicked none)
    | .reacts cue _ ops panicsAfter =>
      if role.left = 0 || !cue.isMet group event then (w, .handled)
      else
        let w := World.setRole w l { role with left := role.left - 1 }
        match react perform role.name group ops w with
        | (w, .ok _) =>
          (w, if panicsAfter then .panicked (some s!"{role.name} panicked") else .handled)
        | (w, .error panic) => (w, .panicked (some panic.text))

/-- Does what a script says, and nobody hears of the answers. -/
def play (perform : Doing) : List Op → World → World × Returned Unit
  | [], w => (w, .ok ())
  | op :: rest, w => andThen (perform op w) fun w _ => play perform rest w

/-- Plays what is due before the next reading. While scripts are played readings do not count, and
another clock than that of the steps has no scripts. A script that panics is the last of its
step. -/
def beforeReading (perform : Doing) (w : World) : World × Returned Unit :=
  if w.outside.steady || w.outside.playing then (w, .ok ())
  else
    let reading := w.outside.readings + 1
    let due := (w.outside.scripts.filter (·.reading == reading)).flatMap (·.ops)
    let w := World.around w (fun o => { o with readings := reading, playing := true })
    andThen (play perform due w) fun w _ =>
      (World.around w (fun o => { o with playing := false }), .ok ())

/-- How many scripts are still to come in this step. -/
def pending (o : Outside) : Nat :=
  (o.scripts.filter (fun s => o.readings < s.reading)).length

/-- The surroundings of the registry in a scenario. -/
def surroundings (perform : Doing) : Surroundings Outside where
  beforeReading := beforeReading perform
  listener := tell perform
  interruptions := pending
  walk := Walk.ascending

/-! ## Things done to one record -/

def revise (i : Nat) (revision : Revision) (w : World) : World × Answer :=
  ((w.setRecord i revision.group).logAll revision.log, .truth revision.changed)

def actOnRecord (i : Nat) (g : Group) (w : World) : GroupOp → World × Answer
  | .hear spec policy now =>
    let (w, c) := World.clientOf w spec
    revise i (g.hear c policy now) w
  | .declare subscriptions now => revise i (g.declare subscriptions now) w
  | .takeOut spec =>
    let (w, c) := World.clientOf w spec
    match g.clients.find? c.channel.id with
    | none => (w, .truth false)
    | some stored =>
      ((w.setRecord i (g.without c.channel.id)).logAll [g.leftLine stored], .truth true)
  | .channelClosed ref address =>
    let (w, c) := World.channelOf w ref
    match g.clients.find? c.id with
    | none => (w, .nothing)
    | some stored =>
      ((w.setRecord i (g.without c.id)).logAll [g.closedLine address stored], .client stored)
  | .expire now limit =>
    (w.setRecord i (g.withoutExpired now limit), .clients (g.expired now limit))
  | .findClient name => (w, World.clientAnswer name (g.clientsNamed name))
  | .findChannel id => (w, ((g.clients.find? id).map .client).getD .nothing)
  | .findSubscription topic =>
    (w, ((g.subscriptions.find? topic).map .subscription).getD .nothing)
  | .wants topic => (w, .truth (g.wants topic))
  | .info => (w, .info g)

def actOnKept (handle : String) (op : GroupOp) (w : World) : World × Answer :=
  match w.outside.kept.find? handle with
  | none => (w, .nothing)
  | some i => match w.record? i with
    | none => (w, .nothing)
    | some g => actOnRecord i g w op

/-! ## Things done to the registry -/

def register (env : Surroundings Outside) (q : Registration) (w : World) :
    Entrance → World × Returned Answer
  | .lenient =>
    let (w, changed) := w.register env q
    (w, changed.map .truth)
  | .whole =>
    let (w, changed) := w.registerAll env q
    (w, changed.map .truth)
  | .strict =>
    andThen (w.tryRegister env q) fun w result =>
      match result with
      | .ok changed => (w, .ok (.truth changed))
      | .error j => (w, .ok (.rejected j))

/-- Tells the wire of a channel to close, and passes on what it says. -/
def closeWire (ref : ChannelRef) (w : World) : World × Returned Answer :=
  let (w, c) := World.channelOf w ref
  match (w.wire c).close c with
  | (wire, .done) => (w.setWire c wire, .ok .nothing)
  | (wire, .refused why) => (w.setWire c wire, .ok (.refused why))
  | (wire, .panicked panic) => (w.setWire c wire, .error panic)

/-- Does something, in these surroundings. -/
def act (env : Surroundings Outside) (depth : Nat) (w : World) : Op → World × Returned Answer
  | .register spec entrance =>
    let (w, q) := World.registrationOf w spec
    register env q w entrance
  | .leave group spec announce =>
    let (w, c) := World.clientOf w spec
    (w.leave env group c (announce.getD w.settings.announceChanges), .ok .nothing)
  | .channelClosed ref address =>
    let (w, c) := World.channelOf w ref
    let (w, told) := w.channelClosed env (address.getD c.address) c.id
    (w, .ok (.truth told))
  | .sweep =>
    let (w, n) := w.sweep env
    (w, n.map .number)
  | .findClient group name => (w, .ok (World.clientAnswer name (w.clientsNamed group name)))
  | .findChannel group ref =>
    let (w, c) := World.channelOf w ref
    (w, .ok (((w.clientOn? group c.id).map .client).getD .nothing))
  | .findSubscription group topic =>
    (w, .ok (((w.subscription? group topic).map .subscription).getD .nothing))
  | .subscriptionCount group => (w, .ok (.number (w.subscriptionCount group)))
  | .wanting topic => (w, .ok (.names (w.wanting topic)))
  | .info group => (w, .ok (((w.group? group).map .info).getD .nothing))
  | .groups => (w, .ok (.groups w.groupNames w.table.size w.listeners.length))
  | .settings => (w, .ok (.settings w.settings))
  | .keep group handle => match w.current? group with
    | none => (w, .ok (.truth false))
    | some i => (World.keep w handle i, .ok (.truth true))
  | .keepAll handle => (World.keepAll w handle, .ok (.names w.groupNames))
  | .onKept handle op => returned (actOnKept handle op w)
  | .isCurrent handle => (w, .ok (.truth (World.keepsCurrent w handle)))
  | .append name manner => (World.addRole w name manner, .ok .nothing)
  | .advance span =>
    let c := w.outside.testClock.advance span
    (World.setClock w c, .ok (.number c.now.toNat))
  | .setTime time => (World.setClock w (w.outside.testClock.set time), .ok .nothing)
  | .closeWire ref => closeWire ref w
  | .closeQuietly ref =>
    let (w, c) := World.channelOf w ref
    andThen (w.closeQuietly c) fun w _ => (w, .ok .nothing)
  | .channels => (w, .ok (.channels (World.wireList w)))
  | .samples => (w, .ok ((w.samples.map .samples).getD .nothing))
  | .notebook name look => returned (World.look w name look)
  | .timer name op => World.onTimer w name op
  | .sleep span =>
    let (w, n) := sleep env depth span w
    (w, .ok (.sweeps n))
  | .jump span =>
    let (w, n) := jump env depth span w
    (w, .ok (.sweeps n))
  | .dispatch group spec =>
    let (w, event) := World.eventOf w spec
    let (w, failures) := w.send env group event
    (w, .ok (.number failures))
  | .listeners => (w, .ok (.listeners w.listeners.length))

/-- Does something, with listeners and scripts that do things up to a depth. -/
def perform : Nat → Op → World → World × Returned Answer
  | 0, _, w => (w, .ok .nothing)
  | depth + 1, op, w => act (surroundings (perform depth)) depth w op

end ConsumerGroups.Scenario
