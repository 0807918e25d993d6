/-!
# Budgets of processors and memory

A budget hands out processors and memory. A request for more than there is in total is refused at once; any
other waits until enough is free, and is looked at again whenever something is given back.
-/

namespace TwoPhase

/-- An amount of processors and of memory in kilobytes. -/
structure Demand where
  cpu : Int64
  mem : Int64
  deriving DecidableEq, Inhabited

/-- A request that waits. -/
structure Request where
  name : String
  demand : Demand
  deriving DecidableEq, Inhabited

structure Budget where
  total : Demand
  free : Demand
  waiting : List Request := []
  deriving DecidableEq, Inhabited

namespace Budget

def ofTotal (total : Demand) : Budget :=
  { total, free := total }

/-- What is wrong with a request for more than there is. -/
def excess (b : Budget) (r : Request) : String :=
  (if b.total.cpu < r.demand.cpu then
    r.name ++ " aquired " ++ r.demand.cpu.toInt.repr ++ " cpus, but total " ++ b.total.cpu.toInt.repr
      ++ " cpus available\n"
  else "") ++
  (if b.total.mem < r.demand.mem then
    r.name ++ " aquired " ++ r.demand.mem.toInt.repr ++ " KB memory, but total "
      ++ b.total.mem.toInt.repr ++ " KB memory available\n"
  else "")

def fits (b : Budget) (d : Demand) : Bool :=
  d.cpu ≤ b.free.cpu && d.mem ≤ b.free.mem

def take (b : Budget) (d : Demand) : Budget :=
  { b with free := { cpu := b.free.cpu - d.cpu, mem := b.free.mem - d.mem } }

/-- What becomes of a request. -/
inductive Grant where
  | granted
  | refused (message : String)
  | waits
  deriving DecidableEq

/-- Asks for something. -/
def acquire (b : Budget) (r : Request) : Budget × Grant :=
  let message := b.excess r
  if message ≠ "" then (b, .refused message)
  else if b.fits r.demand then (b.take r.demand, .granted)
  else ({ b with waiting := b.waiting ++ [r] }, .waits)

/-- Looks at the waiting requests in turn; gives those that are served. -/
def serve (b : Budget) : List Request → Budget × List Request
  | [] => (b, [])
  | r :: rs =>
    if b.fits r.demand then
      let (b, served) := serve (b.take r.demand) rs
      (b, r :: served)
    else
      let (b, served) := serve b rs
      ({ b with waiting := r :: b.waiting }, served)

/-- Gives something back; also gives the requests that are served then. -/
def release (b : Budget) (d : Demand) : Budget × List Request :=
  serve { b with
    free := { cpu := b.free.cpu + d.cpu, mem := b.free.mem + d.mem }
    waiting := [] } b.waiting

end Budget

end TwoPhase
