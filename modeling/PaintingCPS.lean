import PaintingCPS.Handshake.Callers
import PaintingCPS.Handshake.Ids
import PaintingCPS.Handshake.Loss
import PaintingCPS.Handshake.Symmetric
import PaintingCPS.JClient.GetResult
import PaintingCPS.JClient.Handover
import PaintingCPS.Matching.Histogram
import PaintingCPS.Matching.Location
import PaintingCPS.Matching.SameAnswer
import PaintingCPS.Matching.Verdict
import PaintingCPS.MsgDistributor.Channels
import PaintingCPS.MsgDistributor.Closing
import PaintingCPS.MsgDistributor.Interop
import PaintingCPS.MsgDistributor.Receiving
import PaintingCPS.MsgDistributor.RecvClose
import PaintingCPS.Results.Decoding
import PaintingCPS.Results.Downlink
import PaintingCPS.Results.Framing
import PaintingCPS.Server.Dispatch
import PaintingCPS.Server.Faultless
import PaintingCPS.Server.Greeting
import PaintingCPS.Server.Load
import PaintingCPS.Server.Login
import PaintingCPS.Server.MFReceive
import PaintingCPS.Server.Order
import PaintingCPS.Server.Overrun
import PaintingCPS.Server.Port
import PaintingCPS.Server.Rest
import PaintingCPS.Server.Users.Results
import PaintingCPS.Server.Tokenizing
import PaintingCPS.Storm.Image
import PaintingCPS.Upload.Capture.Faithful
import PaintingCPS.Upload.Completion
import PaintingCPS.Upload.Java
import PaintingCPS.Upload.Orbit
import PaintingCPS.Upload.Tcp
