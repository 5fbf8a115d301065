/-! Lengths of time to the nanosecond. -/
namespace LaunchTrace

structure Duration where
  nanos : Nat
deriving DecidableEq, Repr

namespace Duration

def ofMicros (n : Nat) : Duration := ⟨n * 1000⟩

def ofMillis (n : Nat) : Duration := ⟨n * 1000000⟩

def ofSeconds (n : Nat) : Duration := ⟨n * 1000000000⟩

def wholeSeconds (d : Duration) : Nat := d.nanos / 1000000000

end Duration
end LaunchTrace
