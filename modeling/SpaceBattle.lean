import SpaceBattle.Lib.Machine
import SpaceBattle.Lib.Cpp
import SpaceBattle.Lib.Buffer
import SpaceBattle.Lib.Iterator
import SpaceBattle.DataUtils
import SpaceBattle.Message
import SpaceBattle.Rooms
import SpaceBattle.RequestProcesser
import SpaceBattle.Seats
import SpaceBattle.Lobby
import SpaceBattle.Seating
import SpaceBattle.Viewers
import SpaceBattle.Chat
import SpaceBattle.Pool
import SpaceBattle.Identity
import SpaceBattle.Presence
import SpaceBattle.Connection
import SpaceBattle.Answers
import SpaceBattle.Lib.AsyncWrite
import SpaceBattle.Engine
import SpaceBattle.Service
import SpaceBattle.Pipelining
import SpaceBattle.Decisions
import SpaceBattle.Isolation
import SpaceBattle.Games
import SpaceBattle.Creation
import SpaceBattle.HeaderTexts
import SpaceBattle.Joining
import SpaceBattle.HeaderCodec
import SpaceBattle.Reads
import SpaceBattle.Layout
import SpaceBattle.Canonical
import SpaceBattle.OneShot
import SpaceBattle.Completions
import SpaceBattle.Client
import SpaceBattle.Network
import SpaceBattle.Exchange
import SpaceBattle.Atomicity
import SpaceBattle.Progress
import SpaceBattle.Asio
import SpaceBattle.Segments
import SpaceBattle.Streams
import SpaceBattle.Hall
import SpaceBattle.Lib.Simulation
import SpaceBattle.Refinement
import SpaceBattle.Server
import SpaceBattle.Observation
import SpaceBattle.RoundTrips
import SpaceBattle.Codes
import SpaceBattle.SegmentedNetwork
import SpaceBattle.Symmetry
import SpaceBattle.Footprint
import SpaceBattle.Connect
