/-!
# The public error catalogue (`include/rzi/err.h`, `src/common/common_err.c`)

Public functions return `0` or a negated catalogue value; the model returns `Except Err`. Vendor and
POSIX codes enter through `errFromErrno`.
-/

namespace Rzi

/-- `enum rzi_err` without `RZI_SUCCESS`. -/
inductive Err where
  | invalid | isr | notReady | already | busy | notSupported | noResource | notFound | noData
  | tooLarge | timeout | overflow | io | badMessage | noDevice | notJoined | denied | invalidState
deriving DecidableEq, Repr

def Err.code : Err → Nat
  | .invalid => 1000
  | .isr => 1001
  | .notReady => 1002
  | .already => 1003
  | .busy => 1004
  | .notSupported => 1005
  | .noResource => 1006
  | .notFound => 1007
  | .noData => 1008
  | .tooLarge => 1009
  | .timeout => 1010
  | .overflow => 1011
  | .io => 1012
  | .badMessage => 1013
  | .noDevice => 1014
  | .notJoined => 1015
  | .denied => 1016
  | .invalidState => 1017

/-- The negative return values `rzi_err_from_errno` tells apart. -/
inductive Errno where
  | inval | again | already | busy | notsup | nosys | nomem | noent | nodata | msgsize | nametoolong
  | timedout | overflow | nospc | badmsg | nodev | netdown | acces | perm | exist | io | other
deriving DecidableEq, Repr

/-- `rzi_err_from_errno` on a negative POSIX value. -/
def errFromErrno : Errno → Err
  | .inval => .invalid
  | .again => .notReady
  | .already => .already
  | .busy => .busy
  | .notsup | .nosys => .notSupported
  | .nomem => .noResource
  | .noent => .notFound
  | .nodata => .noData
  | .msgsize | .nametoolong => .tooLarge
  | .timedout => .timeout
  | .overflow => .overflow
  | .nospc => .noResource
  | .badmsg => .badMessage
  | .nodev => .noDevice
  | .netdown => .notReady
  | .acces | .perm => .denied
  | .exist => .already
  | .io | .other => .io

end Rzi
