import CoreUtils.Reporter.ClientLifecycleRoundTrip

/-!
# Which records an attachment has room for

`encodeBrowserLifecycleAttachment` goes through the sanitized records in the order of their priority
and includes each of them that still fits. This is a `GreedyFill`, so that what is included of some
priority does not depend on the records of lower priority (`encode_priority`).
-/

namespace CoreUtils.Reporter.Lifecycle

open GreedyFill Json

variable {runtime : Runtime}

end CoreUtils.Reporter.Lifecycle
