import WaltzExample.Machine.Theorems
import WaltzExample.Machine.Refinement
import WaltzExample.Method.Theorems
import WaltzExample.Heap.Basic
import WaltzExample.FragmentManager.Theorems
import WaltzExample.Android.Execution.Theorems.Runs
import WaltzExample.Android.Execution.Theorems.Answers
import WaltzExample.Android.Execution.Theorems.Stable
import WaltzExample.Android.Dialog.Theorems
import WaltzExample.Android.Dialog.Runs
import WaltzExample.Android.Navigation.Theorems
import WaltzExample.Android.Reports.Theorems
import WaltzExample.Android.Screen.Runs
import WaltzExample.Android.Lifecycle.Theorems
import WaltzExample.Android.Lifecycle.Runs
import WaltzExample.Android.Lifecycle.Completion
import WaltzExample.Android.Recreation.Theorems
import WaltzExample.Android.Recreation.Runs
import WaltzExample.IOS.Response.Theorems
import WaltzExample.IOS.Response.Runs
import WaltzExample.Base64.Theorems
import WaltzExample.IOS.JWTDecode.Theorems
import WaltzExample.IOS.JWTDecode.Response
import WaltzExample.Varint.Theorems
import WaltzExample.Decoder.Theorems
import WaltzExample.Nanopb.Message.Size
import WaltzExample.Nanopb.Transport.Theorems
import WaltzExample.Nanopb.Uploader.Theorems
