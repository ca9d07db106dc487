import WordArena.Engine.Replay

/-! Views of a game for one role. A seat sees the public part, its own rack and
its own private transitions. -/
namespace WordArena.Engine

def projectionSchemaVersion : UInt32 := 1

structure PublicProjection where
  schemaVersion : UInt32
  state : PublicGameState
  events : List GameEvent
deriving DecidableEq

structure SeatProjection where
  schemaVersion : UInt32
  seat : Seat
  publicView : PublicProjection
  rack : Rack
  privateEvents : List PrivateGameEvent
deriving DecidableEq

def Game.publicProjection (g : Game) : PublicProjection where
  schemaVersion := projectionSchemaVersion
  state := g.state
  events := g.events

/-- The source indexes the racks. Only a seat of the table asks. -/
def Game.seatProjection (g : Game) (seat : Seat) : SeatProjection where
  schemaVersion := projectionSchemaVersion
  seat := seat
  publicView := g.publicProjection
  rack := g.rack seat
  privateEvents := g.privateEvents.filter fun event => event.seat = seat

/-- The view of a trusted human. The future bag stays out of it. -/
structure HumanSpectatorProjection where
  schemaVersion : UInt32
  publicView : PublicProjection
  racks : List Rack
  privateEvents : List PrivateGameEvent
deriving DecidableEq

structure AdministratorProjection where
  schemaVersion : UInt32
  snapshot : GameSnapshot
deriving DecidableEq

def Game.humanSpectatorProjection (g : Game) : HumanSpectatorProjection where
  schemaVersion := projectionSchemaVersion
  publicView := g.publicProjection
  racks := g.racks
  privateEvents := g.privateEvents

def Game.administratorProjection (platform : Platform) (g : Game) : AdministratorProjection where
  schemaVersion := projectionSchemaVersion
  snapshot := g.snapshot platform

end WordArena.Engine
