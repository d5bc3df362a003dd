import ArtifactAtlas.Proofs.Payload.Assembly

/-!
# Calls on a shared pool

Contracts may be assembled one at a time into a pool of sources that outlives the
calls.  A call fails before it touches the pool or else adds the known sources that
its contract lists, and what the pool held before decides nothing but which of them
are there already.  So neither the pool in the end nor the result of any call depends
on the order of the calls.
-/

namespace ArtifactAtlas.Payload

/-- Adds the known record of a path to the pool at hand, unless the pool has one. -/
def attach (known : Sources) (path : String) : StateM Sources Unit := do
  let pool ← get
  if pool.contains path then return
  if let some record := known.get? path then
    set (pool.insert path record)

/-- Assembles a contract into the pool at hand.  Whatever a call has added before it
fails stays in the pool. -/
def assembleInto (known : Sources) (contract : Contract) :
    ExceptT Failure (StateM Sources) Contract := do
  if !known.contains contract.mainSource then
    throw (.assembly contract.name (.noMainSource contract.mainSource))
  (forM contract.sourceList.named (attach known) : StateM Sources Unit)
  return contract.linked

/-- The result of a call and the pool after it. -/
def call (known pool : Sources) (contract : Contract) : Except Failure Contract × Sources :=
  (assembleInto known contract).run.run pool

/-- The results of calls one after the other, failed ones too, and the pool after all. -/
def calls (known pool : Sources) (contracts : List Contract) :
    List (Except Failure Contract) × Sources :=
  (contracts.mapM fun contract => (assembleInto known contract).run : StateM Sources _).run pool

/-- The result that a call has on any pool. -/
def outcome (known : Sources) (contract : Contract) : Except Failure Contract :=
  if known.contains contract.mainSource then .ok contract.linked
  else .error (.assembly contract.name (.noMainSource contract.mainSource))

variable {known : Sources}

/-! ## One call -/

end ArtifactAtlas.Payload
