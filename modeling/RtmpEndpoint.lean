import RtmpEndpoint.Main
import RtmpEndpoint.Proofs.Chunk.Head
import RtmpEndpoint.Proofs.Chunk.Awaited
import RtmpEndpoint.Proofs.Chunk.Splitting
import RtmpEndpoint.Proofs.Chunk.Interleaving
import RtmpEndpoint.Proofs.Flow.Sending
import RtmpEndpoint.Proofs.Chunk.Agreement
import RtmpEndpoint.Proofs.Session.Peer
import RtmpEndpoint.Proofs.Flow.Refusal
import RtmpEndpoint.Proofs.Flow.Log
import RtmpEndpoint.Proofs.Session.Oblivious
import RtmpEndpoint.Proofs.Connection.Delivery
import RtmpEndpoint.Proofs.Connection.Prefix
import RtmpEndpoint.Proofs.Connection.Lagging
import RtmpEndpoint.Proofs.Connection.Cutting
import RtmpEndpoint.Proofs.Amf0.Shape
import RtmpEndpoint.Proofs.Amf0.Written
import RtmpEndpoint.Proofs.Amf0.RoundTrip
import RtmpEndpoint.Proofs.Amf0.Reencoding
import RtmpEndpoint.Proofs.Chunk.Taking
import RtmpEndpoint.Proofs.Chunk.Alone
import RtmpEndpoint.Proofs.Chunk.History
import RtmpEndpoint.Proofs.Chunk.Collecting
import RtmpEndpoint.Proofs.Connection.Opening
import RtmpEndpoint.Proofs.Message.RoundTrip
import RtmpEndpoint.Proofs.Session.StreamIds
import RtmpEndpoint.Proofs.Session.Bookkeeping
import RtmpEndpoint.Proofs.Flow.Acknowledging
import RtmpEndpoint.Proofs.Connection.Counting
import RtmpEndpoint.Proofs.Flow.Exchange
import RtmpEndpoint.Proofs.Session.Connecting
import RtmpEndpoint.Proofs.Session.Activities
import RtmpEndpoint.Proofs.Session.Calling
import RtmpEndpoint.Proofs.Session.Lasting
import RtmpEndpoint.Proofs.Connection.Violations
import RtmpEndpoint.Proofs.Connection.Closing
import RtmpEndpoint.Proofs.Message.Packing
import RtmpEndpoint.Proofs.Chunk.Repeated
import RtmpEndpoint.Proofs.Flow.Growing
import RtmpEndpoint.Proofs.Connection.Answering
import RtmpEndpoint.Proofs.Connection.Writing
import RtmpEndpoint.Proofs.Connection.Following
import RtmpEndpoint.Proofs.Connection.Moves
import RtmpEndpoint.Proofs.Connection.Stopping
import RtmpEndpoint.Proofs.Session.ChunkStreamIds
import RtmpEndpoint.Proofs.Session.MessageStreamIds
import RtmpEndpoint.Proofs.Amf0.Truncation
import RtmpEndpoint.Proofs.Session.Creating
import RtmpEndpoint.Proofs.Chunk.Headless
import RtmpEndpoint.Proofs.Session.Dropping
import RtmpEndpoint.Proofs.Connection.Bandwidth
import RtmpEndpoint.Proofs.Connection.Stages
import RtmpEndpoint.Proofs.Connection.Reading
import RtmpEndpoint.Proofs.Session.Replying
import RtmpEndpoint.Proofs.Session.Ending
import RtmpEndpoint.Proofs.Chunk.Timing
import RtmpEndpoint.Proofs.Chunk.Slicing
import RtmpEndpoint.Proofs.Connection.Rounds
